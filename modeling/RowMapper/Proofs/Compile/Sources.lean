import RowMapper.Proofs.Compile.Conditions

/-!
# What rows are selected from, as a tree

A reader of a `FROM` clause sees a tree of joins. Its leaves are tables and nested statements under
their aliases, and each join has two sides, the columns that both sides share, and a condition.
`Source.tree` is that tree with its names resolved; a nested statement and a condition stand for
their compiled text.

The compiled text of a source is the text of its tree, and a source fails with the same error as its
tree (`Source.chars_tokens`). So whatever holds of the texts of trees holds of compiled sources.
-/

namespace RowMapper

/-- A tree of joins. A join without shared columns or without a condition has no clause for them. -/
inductive JoinTree where
  | table (name : String) (alias? : Option String)
  | query (statement : List Char) (alias? : Option String)
  | join (kind : JoinKind) (left right : JoinTree) (shared : List String)
      (condition? : Option (List Char))
  deriving DecidableEq

/-! ## Texts -/

/-- A word with the blanks around it. -/
def Word.spaced (w : Word) : List Char := ' ' :: (w.text.toList ++ [' '])

namespace JoinTree

/-- A name in quotes. -/
def quoted (quote : Char) (n : String) : List Char := quote :: (n.toList ++ [quote])

/-- Names in quotes with commas between them. -/
def namesText (quote : Char) : List String → List Char
  | [] => []
  | [n] => quoted quote n
  | n :: ns => quoted quote n ++ ',' :: namesText quote ns

/-- What follows a leaf under an alias. -/
def aliasText (quote : Char) : Option String → List Char
  | none => []
  | some n => Word.as.spaced ++ quoted quote n

/-- The clause for shared columns. -/
def sharedText (quote : Char) : List String → List Char
  | [] => []
  | n :: ns => Word.using.spaced ++ '(' :: (namesText quote (n :: ns) ++ [')'])

/-- The clause for a condition. -/
def conditionText : Option (List Char) → List Char
  | none => []
  | some condition => Word.on.spaced ++ condition

/-- Two sides with what stands between them and after them. -/
def joinText (kind : JoinKind) (left right following : List Char) : List Char :=
  '(' :: (left ++ (kind.word.spaced ++ (right ++ (following ++ [')']))))

/-- The text of a tree. -/
def chars (quote : Char) : JoinTree → List Char
  | table n alias? => quoted quote n ++ aliasText quote alias?
  | query statement alias? => '(' :: (statement ++ ')' :: aliasText quote alias?)
  | join kind left right shared condition? =>
    joinText kind (left.chars quote) (right.chars quote)
      (sharedText quote shared ++ conditionText condition?)

/-- The shared columns of each join, the joins in the order in which they are closed. -/
def sharedColumns : JoinTree → List (List String)
  | table _ _ => []
  | query _ _ => []
  | join _ left right shared _ => left.sharedColumns ++ right.sharedColumns ++ [shared]

end JoinTree

namespace Token

variable (quote : Char) (ts : List Token)

theorem chars_name (n : String) : chars [name quote n] = JoinTree.quoted quote n := by
  rw [chars_cons, toList_text_name]
  exact List.append_nil _

theorem chars_clause (w : Word) : chars (clause w ts) = w.spaced ++ chars ts := by
  simp [clause, chars_cons, text, Sign.text, Word.spaced]

theorem chars_commaSeparated_names : ∀ ns : List String,
    chars (commaSeparated ((ns.map (name quote)).map ([·]))) = JoinTree.namesText quote ns
  | [] => rfl
  | [n] => chars_name quote n
  | n :: m :: ns => by
    have hrest := chars_commaSeparated_names (m :: ns)
    show chars ([name quote n] ++ sign .comma ::
      commaSeparated (((m :: ns).map (name quote)).map ([·]))) = _
    rw [chars_append, chars_name, chars_cons]
    exact congrArg (JoinTree.quoted quote n ++ ',' :: ·) hrest

end Token

/-! ## Trees of sources -/

section

variable (cores : Cores) (scope : Scope)

/-- The text of conditions combined; none for no conditions. -/
def conditionText? : List Predicate → Except Error (Option (List Char))
  | [] => .ok none
  | p :: ps => (conjunctionTokens cores scope (p :: ps)).result.map fun ts => some (Token.chars ts)

/-- The tree of a source with its names resolved. -/
def Source.tree : Source → Except Error JoinTree
  | .table t => ((cores scope.session).registry.model t.entity).map fun m =>
      .table m.tableName t.alias?
  | .joinOn kind left right on => do
    let l ← left.tree
    let r ← right.tree
    let condition? ← conditionText? cores scope on
    return .join kind l r [] condition?
  | .joinUsing kind left right fields => do
    let l ← left.tree
    let r ← right.tree
    let columns ← fields.mapM scope.model.columnOf
    return .join kind l r columns none
  | .subquery (.mk s alias?) => (s.tokens cores).result.map fun ts =>
      .query (Token.chars ts) alias?

end

variable {cores : Cores} {scope : Scope}

theorem Scope.chars_aliasTokens (scope : Scope) (alias? : Option String) :
    Token.chars (scope.aliasTokens cores alias?) =
      JoinTree.aliasText (cores scope.session).dialect.quote alias? := by
  cases alias? with
  | none => rfl
  | some n =>
    show Token.chars (clause .as [.name (cores scope.session).dialect.quote n]) = _
    rw [Token.chars_clause, Token.chars_name]
    rfl

/-- A clause of conditions is the text of the conditions after its word. -/
theorem chars_conditionTokens (ps : List Predicate) :
    (conditionTokens cores scope .on ps).result.map Token.chars =
      (conditionText? cores scope ps).map JoinTree.conditionText := by
  cases ps with
  | nil => rfl
  | cons p ps =>
    rw [conditionTokens_cons, Compiled.result_bind, conditionText?]
    cases (conjunctionTokens cores scope (p :: ps)).result with
    | error e => rfl
    | ok ts => exact congrArg Except.ok (Token.chars_clause ts .on)

/-- The clause for shared columns is the text of their names. -/
theorem chars_columns (fields : List String) :
    (scope.columns cores fields).result.map (fun columns => Token.chars
        (if fields.isEmpty then []
          else clause .using (parenthesized (commaSeparated (columns.map ([·])))))) =
      (fields.mapM scope.model.columnOf).map
        (JoinTree.sharedText (cores scope.session).dialect.quote) := by
  rw [Scope.columns_eq_mapM, Compiled.result_map, Compiled.result_ofExcept]
  cases hcolumns : fields.mapM scope.model.columnOf with
  | error e => rfl
  | ok columns =>
    refine congrArg Except.ok ?_
    cases Results.mapM_eq_ok.mp hcolumns with
    | nil => rfl
    | @cons field n fields ns =>
      show Token.chars (clause .using (parenthesized (commaSeparated
        (((n :: ns).map (.name (cores scope.session).dialect.quote)).map ([·]))))) = _
      rw [Token.chars_clause, Token.chars_parenthesized, Token.chars_commaSeparated_names]
      rfl

/-- Two compiled sides and what follows them are a join, if each has the text of its tree. -/
theorem chars_joined {quote : Char} (kind : JoinKind) {l r following : Compiled (List Token)}
    {left right : Except Error JoinTree}
    {clauses : Except Error (List String × Option (List Char))}
    (hl : l.result.map Token.chars = left.map (JoinTree.chars quote))
    (hr : r.result.map Token.chars = right.map (JoinTree.chars quote))
    (hclauses : following.result.map Token.chars = clauses.map fun c =>
      JoinTree.sharedText quote c.1 ++ JoinTree.conditionText c.2) :
    (do
      let l ← l
      let r ← r
      let ts ← following
      return parenthesized (l ++ blank :: Token.word kind.word :: blank :: (r ++ ts))
        : Compiled (List Token)).result.map Token.chars =
      (do
        let l ← left
        let r ← right
        let c ← clauses
        return JoinTree.join kind l r c.1 c.2).map (JoinTree.chars quote) := by
  rw [Compiled.result_bind, Results.map_bind, Results.map_bind]
  refine Results.bind_of_map_eq hl fun ls left hleft => ?_
  rw [Compiled.result_bind, Results.map_bind, Results.map_bind]
  refine Results.bind_of_map_eq hr fun rs right hright => ?_
  rw [Compiled.result_bind, Results.map_bind, Results.map_bind]
  refine Results.bind_of_map_eq hclauses fun ts c hts => congrArg Except.ok ?_
  rw [JoinTree.chars, ← hleft, ← hright, ← hts, Token.chars_parenthesized, Token.chars_append]
  simp [JoinTree.joinText, Word.spaced, Token.chars_cons, Token.chars_append, Token.text, Sign.text]

/-- The text of a source is the text of its tree. A source that has no tree fails with the error of
the tree. -/
theorem Source.chars_tokens (cores : Cores) (scope : Scope) : ∀ s : Source,
    (s.tokens cores scope).result.map Token.chars =
      (s.tree cores scope).map (JoinTree.chars (cores scope.session).dialect.quote)
  | .table t => by
    rw [tokens, Table.tokens, tree, Compiled.result_bind, Compiled.result_model]
    cases (cores scope.session).registry.model t.entity with
    | error e => rfl
    | ok m =>
      refine congrArg Except.ok ?_
      rw [← List.singleton_append, Token.chars_append, Scope.chars_aliasTokens, Scope.name,
        Token.chars_name]
      rfl
  | .joinOn kind left right on => by
    have hclauses : (conditionTokens cores scope .on on).result.map Token.chars =
        ((conditionText? cores scope on).map fun condition? => ([], condition?)).map fun c =>
          JoinTree.sharedText (cores scope.session).dialect.quote c.1 ++
            JoinTree.conditionText c.2 := by
      rw [chars_conditionTokens]
      cases conditionText? cores scope on <;> rfl
    refine (chars_joined kind (left.chars_tokens cores scope)
      (right.chars_tokens cores scope) hclauses).trans ?_
    rw [tree]
    cases conditionText? cores scope on <;> rfl
  | .joinUsing kind left right fields => by
    have hclauses : (scope.columns cores fields >>= fun columns => pure (if fields.isEmpty then []
          else clause .using (parenthesized (commaSeparated (columns.map ([·])))))).result.map
          Token.chars =
        ((fields.mapM scope.model.columnOf).map fun columns => (columns, none)).map fun c =>
          JoinTree.sharedText (cores scope.session).dialect.quote c.1 ++
            JoinTree.conditionText c.2 := by
      rw [Compiled.result_bind, Results.map_bind]
      refine (chars_columns fields).trans ?_
      cases fields.mapM scope.model.columnOf with
      | error e => rfl
      | ok columns => exact congrArg Except.ok (List.append_nil _).symm
    refine Eq.trans ?_ ((chars_joined kind (left.chars_tokens cores scope)
      (right.chars_tokens cores scope) hclauses).trans ?_)
    · simp only [tokens, bind_assoc, pure_bind]
    · rw [tree]
      cases fields.mapM scope.model.columnOf <;> rfl
  | .subquery s => by
    obtain ⟨s, alias?⟩ := s
    rw [tokens, tree, Compiled.result_bind]
    cases (s.tokens cores).result with
    | error e => rfl
    | ok ts =>
      refine congrArg Except.ok ?_
      rw [Token.chars_append, Token.chars_parenthesized, Scope.chars_aliasTokens, JoinTree.chars]
      simp

end RowMapper
