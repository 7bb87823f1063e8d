import RowMapper.Proofs.Compile.Reader

/-!
# Compiled conditions mean what the trees say

`Predicate.term` is the tree of a condition with its names resolved: the stored column in place of a
field, with the alias of what it belongs to, and the compiled text in place of a nested statement. A
list of conditions stands for their conjunction from the left.

The compiler writes parentheses around conditions and none around arithmetic. So the text gives the
tree back where arithmetic needs none (`Expr.NeedsNoGrouping`), and `conditionTokens_read` says that
it does: whoever cuts the text of a clause into lexemes and reads them by the precedence of SQL gets
the conjunction of the given conditions.
-/

namespace RowMapper

/-! ## Trees with resolved names -/

/-- A column by its stored name, under the alias of what its qualifier resolves to. -/
def Column.term (cores : Cores) (scope : Scope) (c : Column) : Option Term :=
  (c.qualifier.resolve cores scope.session scope.model c.field).result.toOption.map
    fun r => .column r.1 r.2

/-- A combined value by the stored column. -/
def Aggregate.term (scope : Scope) (a : Aggregate) : Option Term :=
  (scope.model.columnOf a.field).toOption.map (.aggregate a.function)

/-- The lexemes of a nested statement. -/
def Subquery.statement? (cores : Cores) : Subquery → Option (List Lexeme)
  | .mk s _ => (s.tokens cores).result.toOption.map (·.flatMap Token.lexemes)

mutual

/-- The tree of an operand. A fragment by the caller has none. -/
def Expr.term (cores : Cores) (scope : Scope) : Expr → Option Term
  | .column c => c.term cores scope
  | .value v => some (.value v)
  | .predicate p => p.term cores scope
  | .aggregate a => a.term scope
  | .math op left right => do
    let l ← left.term cores scope
    let r ← right.term cores scope
    return .math op l r
  | .fragment _ => none
  | .subquery s => (s.statement? cores).map .query
  | .quantified q s => (s.statement? cores).map (.quantified q)

/-- The tree of a condition. -/
def Predicate.term (cores : Cores) (scope : Scope) : Predicate → Option Term
  | .compare op left right => do
    let l ← left.term cores scope
    let r ← right.term cores scope
    return .compare op l r
  | .and p q => do
    let l ← p.term cores scope
    let r ← q.term cores scope
    return .and l r
  | .or p q => do
    let l ← p.term cores scope
    let r ← q.term cores scope
    return .or l r
  | .not p => (p.term cores scope).map .not
  | .inList c vs => (c.term cores scope).map (.inList · vs)
  | .inQuery c s => do
    let t ← c.term cores scope
    let statement ← s.statement? cores
    return .inQuery t statement
  | .exists s => (s.statement? cores).map .exists
  | .fragment _ => none

end

/-- The conjunction of a tree with the trees of conditions, from the left. -/
def conjoinedTerm (cores : Cores) (scope : Scope) (left : Term) : List Predicate → Option Term
  | [] => some left
  | p :: ps => do
    let t ← p.term cores scope
    conjoinedTerm cores scope (.and left t) ps

/-- The conjunction of the trees of conditions, from the left. -/
def conjunctionTerm (cores : Cores) (scope : Scope) : List Predicate → Option Term
  | [] => none
  | p :: ps => do
    let t ← p.term cores scope
    conjoinedTerm cores scope t ps

/-! ## Arithmetic that needs no parentheses -/

/-- How much an operand binds. A condition among the operands of arithmetic would need
parentheses. -/
def Expr.level : Expr → ℕ
  | .predicate _ => 0
  | .math op _ _ => op.level
  | _ => 7

mutual

/-- Arithmetic needs no parentheses: the left operand of an operation binds at least as much as the
operation, and the right one more. -/
def Expr.NeedsNoGrouping : Expr → Prop
  | .predicate p => p.NeedsNoGrouping
  | .math op left right =>
    op.level ≤ left.level ∧ op.level < right.level ∧ left.NeedsNoGrouping ∧ right.NeedsNoGrouping
  | _ => True

/-- No arithmetic in a condition needs parentheses. -/
def Predicate.NeedsNoGrouping : Predicate → Prop
  | .compare _ left right => left.NeedsNoGrouping ∧ right.NeedsNoGrouping
  | .and p q => p.NeedsNoGrouping ∧ q.NeedsNoGrouping
  | .or p q => p.NeedsNoGrouping ∧ q.NeedsNoGrouping
  | .not p => p.NeedsNoGrouping
  | _ => True

end

/-- A text gives a tree back, and binds at least as much as a level. -/
def ReadsFrom (level : ℕ) (t? : Option Term) (ts : List Token) : Prop :=
  ∃ n t, t? = some t ∧ level ≤ n ∧ Reads n (ts.flatMap Token.lexemes) t

/-- What binds at least as much as a level binds at least as much as a lower one. -/
theorem ReadsFrom.mono {k n : ℕ} {t? : Option Term} {ts : List Token} (h : ReadsFrom n t? ts)
    (hkn : k ≤ n) : ReadsFrom k t? ts := by
  obtain ⟨m, t, ht, hm, hreads⟩ := h
  exact ⟨m, t, ht, Nat.le_trans hkn hm, hreads⟩

/-- In parentheses a text binds more than any operator, whatever it is. -/
theorem ReadsFrom.parenthesized {n : ℕ} {t? : Option Term} {ts : List Token}
    (h : ReadsFrom n t? ts) : ReadsFrom 7 t? (parenthesized ts) := by
  obtain ⟨m, t, ht, -, hreads⟩ := h
  refine ⟨7, t, ht, Nat.le_refl _, ?_⟩
  rw [lexemes_parenthesized]
  exact hreads.group

/-- Two texts with an operator between them. -/
theorem ReadsFrom.between {m n : ℕ} {t? u? : Option Term} {l r : List Token} {sep : Token}
    {x : Lexeme} {op : Infix} (hsep : sep.lexemes = [x]) (hx : Infix.ofLexeme? x = some op)
    (hl : ReadsFrom m t? l) (hr : ReadsFrom n u? r) (hm : op.level ≤ m) (hn : op.level < n) :
    ReadsFrom op.level (do let t ← t?; let u ← u?; return op.apply t u)
      (l ++ blank :: sep :: blank :: r) := by
  obtain ⟨m', t, rfl, hm', hleft⟩ := hl
  obtain ⟨n', u, rfl, hn', hright⟩ := hr
  refine ⟨op.level, op.apply t u, rfl, Nat.le_refl _, ?_⟩
  have hlexemes : (l ++ blank :: sep :: blank :: r).flatMap Token.lexemes =
      l.flatMap Token.lexemes ++ x :: r.flatMap Token.lexemes := by
    have hblank : blank.lexemes = [] := rfl
    simp [hsep, hblank]
  rw [hlexemes]
  exact Reads.between hx hleft hright (Nat.le_trans hm hm') (Nat.lt_of_lt_of_le hn hn')

/-- A conjunction of two texts. The parentheses around them make their own levels irrelevant. -/
theorem ReadsFrom.and {m n : ℕ} {t? u? : Option Term} {l r : List Token} (hl : ReadsFrom m t? l)
    (hr : ReadsFrom n u? r) : ReadsFrom 2 (do let t ← t?; let u ← u?; return .and t u)
      (RowMapper.parenthesized l ++ blank :: .word .and :: blank :: RowMapper.parenthesized r) := by
  have hword : (Token.word .and).lexemes = [.word "AND"] := rfl
  have hop : Infix.ofLexeme? (.word "AND") = some .and := rfl
  exact .between hword hop hl.parenthesized hr.parenthesized (by decide) (by decide)

/-- A disjunction of two texts. -/
theorem ReadsFrom.or {m n : ℕ} {t? u? : Option Term} {l r : List Token} (hl : ReadsFrom m t? l)
    (hr : ReadsFrom n u? r) : ReadsFrom 1 (do let t ← t?; let u ← u?; return .or t u)
      (RowMapper.parenthesized l ++ blank :: .word .or :: blank :: RowMapper.parenthesized r) := by
  have hword : (Token.word .or).lexemes = [.word "OR"] := rfl
  have hop : Infix.ofLexeme? (.word "OR") = some .or := rfl
  exact .between hword hop hl.parenthesized hr.parenthesized (by decide) (by decide)

variable {cores : Cores}

/-! ## Nested statements -/

/-- A reader passes over all tokens of the compiler without leaving or entering parentheses: these
come from phrases only. -/
theorem Token.unnested_vocabulary (cores : Cores) :
    Vocabulary cores Token.Unnested (fun _ => True) (fun _ => False) where
  word w := by simp [Unnested, lexemes]
  operator s hs := by
    rcases Sign.mem_operators.mp hs with
      rfl | rfl | rfl | rfl | rfl | rfl | rfl | rfl | rfl <;> simp [Unnested, lexemes]
  bound v := by simp [Unnested, lexemes]
  name session n _ := by simp [Unnested, lexemes]
  fragment f hf := hf.elim

/-- A select statement begins with its word. -/
theorem Select.tokens_head {M : String × EntityType → Prop} (s : Select) :
    (s.tokens cores).Ensures M fun ts =>
      (ts.flatMap Token.lexemes).head? = some (.word "SELECT") := by
  cases s
  exact .bind .any fun _ _ => .bind .any fun _ _ => .bind .any fun _ _ => .bind .any fun _ _ =>
    .bind .any fun _ _ => .bind .any fun _ _ => .bind .any fun _ _ => .pure rfl

/-- The text of a nested statement is one that is read as a whole. -/
theorem Subquery.tokens_statement : ∀ s : Subquery, s.UsesOnly (fun _ => True) (fun _ => False) →
    (s.tokens cores).Ensures (cores.NamesSatisfy fun _ => True) fun ts =>
      ∃ statement, s.statement? cores = some statement ∧ PassedOver statement ∧
        statement.head? = some (.word "SELECT") ∧
        ts.flatMap Token.lexemes = .sign .openParen :: (statement ++ [.sign .closeParen])
  | .mk s _, h => by
    have hphrase := (Token.unnested_vocabulary cores).selectTokens s h.1
    refine .bind ((hphrase.and s.tokens_head).and .self) fun ts hts => .pure ?_
    obtain ⟨⟨hts, hselect⟩, hresult⟩ := hts
    refine ⟨_, ?_, hts.passedOver, hselect, lexemes_parenthesized ts⟩
    rw [statement?, hresult]
    rfl

/-! ## Columns and combined values -/

/-- A column is read as it was resolved. -/
theorem Column.tokens_reads {M : String × EntityType → Prop} (scope : Scope) (c : Column) :
    (c.tokens cores scope).Ensures M (ReadsFrom 7 (c.term cores scope)) := by
  refine .bind .self fun r hr => .pure ?_
  obtain ⟨alias?, column⟩ := r
  have hterm : c.term cores scope = some (.column alias? column) := by
    rw [term, hr]
    rfl
  cases alias? with
  | none => exact ⟨7, _, hterm, Nat.le_refl _, .column column⟩
  | some a => exact ⟨7, _, hterm, Nat.le_refl _, .qualifiedColumn a column⟩

/-- A combined value is read as one, with its column. -/
theorem Aggregate.tokens_reads {M : String × EntityType → Prop} (scope : Scope) (a : Aggregate) :
    (a.tokens cores scope).Ensures M (ReadsFrom 7 (a.term scope)) := by
  have hcolumn : (scope.column cores a.field).Ensures M fun c =>
      ∃ column, scope.model.columnOf a.field = .ok column ∧ c = scope.name cores column :=
    .bind .self fun column h => .pure ⟨column, h, rfl⟩
  refine .bind hcolumn fun c hc => .pure ?_
  obtain ⟨column, hcolumn, rfl⟩ := hc
  refine ⟨7, .aggregate a.function column, ?_, Nat.le_refl _, ?_⟩
  · rw [term, hcolumn]
    rfl
  · have hlexemes : (Token.word a.function.word :: parenthesized [scope.name cores column]).flatMap
        Token.lexemes = [.word a.function.word.text, .sign .openParen, .name column,
          .sign .closeParen] := by
      cases a.function <;> rfl
    rw [hlexemes]
    exact .aggregate a.function column

/-! ## Expressions and conditions -/

/-- An operand of a condition is in parentheses if it is a condition itself; otherwise it binds more
than a comparison. -/
theorem Expr.sideTokens_reads {M : String × EntityType → Prop} {scope : Scope} {e : Expr}
    (h : (e.tokens cores scope).Ensures M (ReadsFrom e.level (e.term cores scope))) :
    (e.sideTokens cores scope).Ensures M (ReadsFrom 5 (e.term cores scope)) := by
  rw [sideTokens_eq]
  refine .bind h fun ts hts => .pure ?_
  cases e with
  | predicate p => exact hts.parenthesized.mono (by omega)
  | math op l r => exact hts.mono (by cases op <;> simp [level, Arithmetic.level])
  | _ => exact hts.mono (by simp [level])

/-- An operation, where its operands bind enough. -/
theorem Expr.math_reads {M : String × EntityType → Prop} {scope : Scope} (op : Arithmetic)
    {left right : Expr}
    (hl : (left.tokens cores scope).Ensures M (ReadsFrom left.level (left.term cores scope)))
    (hr : (right.tokens cores scope).Ensures M (ReadsFrom right.level (right.term cores scope)))
    (hleft : op.level ≤ left.level) (hright : op.level < right.level) :
    ((Expr.math op left right).tokens cores scope).Ensures M
      (ReadsFrom op.level ((Expr.math op left right).term cores scope)) := by
  refine .bind hl fun l hl => .bind hr fun r hr => .pure ?_
  have hop : Infix.ofLexeme? (.sign op.sign) = some (.math op) := by cases op <;> rfl
  have hsign : (Token.sign op.sign).lexemes = [.sign op.sign] := by cases op <;> rfl
  -- no parentheses are written here, so the levels of the operands have to do
  exact .between hsign hop hl hr hleft hright

mutual

/-- An operand gives its tree back, at its own level, since there are no parentheses around it. -/
theorem Expr.tokens_reads (scope : Scope) : ∀ e : Expr,
    e.UsesOnly (fun _ => True) (fun _ => False) → e.NeedsNoGrouping →
    (e.tokens cores scope).Ensures (cores.NamesSatisfy fun _ => True)
      (ReadsFrom e.level (e.term cores scope))
  | .column c, _, _ => c.tokens_reads scope
  | .value v, _, _ => .pure ⟨7, _, rfl, Nat.le_refl _, .value v⟩
  | .predicate p, h, hflat =>
    (p.tokens_reads scope h hflat).mono fun _ hts => hts.mono (Nat.zero_le 1)
  | .aggregate a, _, _ => a.tokens_reads scope
  | .math op left right, h, hflat => by
    obtain ⟨hleft, hright, hl, hr⟩ := hflat
    exact Expr.math_reads op (left.tokens_reads scope h.1 hl) (right.tokens_reads scope h.2 hr)
      hleft hright
  | .fragment _, h, _ => h.elim
  | .subquery s, h, _ => by
    refine (s.tokens_statement h).mono fun ts hts => ?_
    obtain ⟨statement, hstatement, hpassed, hselect, hlexemes⟩ := hts
    refine ⟨7, .query statement, by rw [Expr.term, hstatement]; rfl, Nat.le_refl _, ?_⟩
    rw [hlexemes]
    exact .query hpassed hselect
  | .quantified q s, h, _ => by
    refine .bind (s.tokens_statement h) fun ts hts => .pure ?_
    obtain ⟨statement, hstatement, hpassed, hselect, hlexemes⟩ := hts
    refine ⟨7, .quantified q statement, by rw [Expr.term, hstatement]; rfl, Nat.le_refl _, ?_⟩
    have hword : (Token.word q.word :: blank :: ts).flatMap Token.lexemes =
        .word q.word.text :: .sign .openParen :: (statement ++ [.sign .closeParen]) := by
      rw [← hlexemes]
      cases q <;> rfl
    rw [hword]
    exact .quantified hpassed hselect q

/-- A condition gives its tree back. By induction on the tree: the parentheses around conditions
make their levels irrelevant, and operands of comparisons bind more than these. -/
theorem Predicate.tokens_reads (scope : Scope) : ∀ p : Predicate,
    p.UsesOnly (fun _ => True) (fun _ => False) → p.NeedsNoGrouping →
      (p.tokens cores scope).Ensures (cores.NamesSatisfy fun _ => True)
        (ReadsFrom 1 (p.term cores scope))
  | .compare op left right, h, hflat => by
    refine .bind (Expr.sideTokens_reads (left.tokens_reads scope h.1 hflat.1)) fun l hl => ?_
    refine .bind (Expr.sideTokens_reads (right.tokens_reads scope h.2 hflat.2)) fun r hr =>
      .pure ?_
    have hop : Infix.ofLexeme? (.sign op.sign) = some (.compare op) := by cases op <;> rfl
    have hsign : (Token.sign op.sign).lexemes = [.sign op.sign] := by cases op <;> rfl
    have hlevel : (Infix.compare op).level = 4 := rfl
    exact (ReadsFrom.between hsign hop hl hr (by omega) (by omega)).mono (by omega)
  | .and p q, h, hflat => by
    refine .bind (p.tokens_reads scope h.1 hflat.1) fun l hl => ?_
    refine .bind (q.tokens_reads scope h.2 hflat.2) fun r hr => .pure ?_
    exact (hl.and hr).mono (by decide)
  | .or p q, h, hflat => by
    refine .bind (p.tokens_reads scope h.1 hflat.1) fun l hl => ?_
    refine .bind (q.tokens_reads scope h.2 hflat.2) fun r hr => .pure ?_
    exact hl.or hr
  | .not p, h, hflat => by
    refine .bind (p.tokens_reads scope h hflat) fun ts hts => .pure ?_
    obtain ⟨n, t, ht, hn, hreads⟩ := hts.parenthesized
    exact ⟨3, .not t, by rw [Predicate.term, ht]; rfl, by decide, hreads.not (by omega)⟩
  | .inList _ [], _, _ => .fail _
  | .inList c (v :: vs), h, _ => by
    refine .bind (c.tokens_reads scope) fun ts hts => .pure ?_
    obtain ⟨n, t, ht, hn, hreads⟩ := hts
    refine ⟨4, .inList t (v :: vs), by rw [Predicate.term, ht]; rfl, by decide, ?_⟩
    have hlexemes : ∀ us, (ts ++ blank :: .word .in :: blank :: parenthesized us).flatMap
        Token.lexemes = ts.flatMap Token.lexemes ++ .word "IN" :: .sign .openParen ::
          (us.flatMap Token.lexemes ++ [.sign .closeParen]) := by
      intro us
      rw [List.flatMap_append, ← lexemes_parenthesized]
      rfl
    rw [hlexemes]
    exact hreads.inList (by omega) (List.cons_ne_nil v vs)
  | .inQuery c s, h, _ => by
    refine .bind (c.tokens_reads scope) fun l hl => ?_
    refine .bind (s.tokens_statement h.2) fun ts hts => .pure ?_
    obtain ⟨n, t, ht, hn, hreads⟩ := hl
    obtain ⟨statement, hstatement, hpassed, hselect, hlexemes⟩ := hts
    refine ⟨4, .inQuery t statement, by rw [Predicate.term, ht, hstatement]; rfl, by decide, ?_⟩
    have hin : (l ++ blank :: .word .in :: blank :: ts).flatMap Token.lexemes =
        l.flatMap Token.lexemes ++
          .word "IN" :: .sign .openParen :: (statement ++ [.sign .closeParen]) := by
      rw [List.flatMap_append, ← hlexemes]
      rfl
    rw [hin]
    exact .inQuery hpassed hselect hreads (by omega)
  | .exists s, h, _ => by
    refine .bind (s.tokens_statement h) fun ts hts => .pure ?_
    obtain ⟨statement, hstatement, hpassed, hselect, hlexemes⟩ := hts
    refine ⟨7, .exists statement, by rw [Predicate.term, hstatement]; rfl, by decide, ?_⟩
    have hword : (Token.word .exists :: blank :: ts).flatMap Token.lexemes =
        .word "EXISTS" :: .sign .openParen :: (statement ++ [.sign .closeParen]) := by
      rw [← hlexemes]
      rfl
    rw [hword]
    exact .existence hpassed hselect
  | .fragment _, h, _ => h.elim

end

/-! ## Lists of conditions -/

theorem conjoinedTokens_reads (scope : Scope) : ∀ (ps : List Predicate) (left : List Token)
    (t : Term), ReadsFrom 1 (some t) left →
      predicatesUseOnly (fun _ => True) (fun _ => False) ps → (∀ p ∈ ps, p.NeedsNoGrouping) →
        (conjoinedTokens cores scope left ps).Ensures (cores.NamesSatisfy fun _ => True)
          (ReadsFrom 1 (conjoinedTerm cores scope t ps))
  | [], _, _, hleft, _, _ => .pure hleft
  | p :: ps, left, t, hleft, h, hflat => by
    refine .bind (p.tokens_reads scope h.1 (hflat p (by simp))) fun r hr => ?_
    obtain ⟨n, u, hu, hn, hreads⟩ := hr
    have hright : ReadsFrom 1 (some u) r := ⟨n, u, rfl, hn, hreads⟩
    have hterm : conjoinedTerm cores scope t (p :: ps) =
        conjoinedTerm cores scope (.and t u) ps := by
      rw [conjoinedTerm, hu]
      rfl
    rw [hterm]
    -- the conditions so far are the left side of the conjunction with the next one
    exact conjoinedTokens_reads scope ps _ _ ((hleft.and hright).mono (by decide)) h.2
      fun q hq => hflat q (by simp [hq])

theorem conjunctionTokens_reads (scope : Scope) (p : Predicate) (ps : List Predicate)
    (h : predicatesUseOnly (fun _ => True) (fun _ => False) (p :: ps))
    (hflat : ∀ q ∈ p :: ps, q.NeedsNoGrouping) :
    (conjunctionTokens cores scope (p :: ps)).Ensures (cores.NamesSatisfy fun _ => True)
      (ReadsFrom 1 (conjunctionTerm cores scope (p :: ps))) := by
  refine .bind (p.tokens_reads scope h.1 (hflat p (by simp))) fun ts hts => ?_
  obtain ⟨n, t, ht, hn, hreads⟩ := hts
  have hterm : conjunctionTerm cores scope (p :: ps) = conjoinedTerm cores scope t ps := by
    rw [conjunctionTerm, ht]
    rfl
  rw [hterm]
  exact conjoinedTokens_reads scope ps ts t ⟨n, t, rfl, hn, hreads⟩ h.2
    fun q hq => hflat q (by simp [hq])

/-- A clause of conditions is their conjunction after the words of the clause. -/
theorem conditionTokens_cons (scope : Scope) (w : Word) (p : Predicate) (ps : List Predicate) :
    conditionTokens cores scope w (p :: ps) =
      conjunctionTokens cores scope (p :: ps) >>= fun ts => pure (clause w ts) := by
  rw [conjunctionTokens, Compiled.bind_assoc]
  rfl

/-! ## The text of a clause -/

/-- A name without a character that could end it. -/
def Unquoted (isQuote : Char → Bool) (n : String) : Prop := ∀ c ∈ n.toList, isQuote c = false

instance (isQuote : Char → Bool) (n : String) : Decidable (Unquoted isQuote n) :=
  List.decidableBAll (fun c => isQuote c = false) n.toList

/-- Reads the text of a condition with its arguments. -/
def readText (isQuote : Char → Bool) (q : Query) : Option Term :=
  (lex isQuote none q.args q.sql.toList).bind readCondition

theorem Token.lexable_vocabulary {isQuote : Char → Bool}
    (hquotes : ∀ session, isQuote (cores session).dialect.quote = true) :
    Vocabulary cores (Token.Lexable isQuote) (Unquoted isQuote) (fun _ => False) where
  word _ := trivial
  operator _ hs := hs
  bound _ := trivial
  name session n hn := by
    refine ⟨hquotes session, fun hmem => ?_⟩
    have hfree := hn _ hmem
    rw [hquotes session] at hfree
    exact absurd hfree (by decide)
  fragment _ hf := hf.elim

/-- A condition means what the tree says. Where no fragment stands in the given conditions and their
arithmetic needs no parentheses, the compiled clause is read by the precedence of SQL as the
conjunction of the conditions from the left, with stored columns in place of fields. Where moreover
names are free of quotes, this is also what is read from the text of the clause with its arguments
in order. -/
theorem conditionTokens_read (cores : Cores) (scope : Scope) (w : Word) (p : Predicate)
    (ps : List Predicate) (ts : List Token)
    (hfragments : predicatesUseOnly (fun _ => True) (fun _ => False) (p :: ps))
    (hgrouping : ∀ q ∈ p :: ps, q.NeedsNoGrouping)
    (hts : (conditionTokens cores scope w (p :: ps)).result = .ok ts) :
    ∃ body t, ts = clause w body ∧ conjunctionTerm cores scope (p :: ps) = some t ∧
      readCondition (body.flatMap Token.lexemes) = some t ∧
      ∀ isQuote, QuotesApart isQuote →
        (∀ session, isQuote (cores session).dialect.quote = true) →
        predicatesUseOnly (Unquoted isQuote) (fun _ => False) (p :: ps) →
        scope.model.NamesSatisfy (Unquoted isQuote) →
        (∀ e ∈ (conditionTokens cores scope w (p :: ps)).consulted,
          cores.NamesSatisfy (Unquoted isQuote) e) →
        readText isQuote (.ofTokens body) = some t := by
  rw [conditionTokens_cons, Compiled.result_bind] at hts
  rw [conditionTokens_cons, Compiled.consulted_bind_pure]
  obtain ⟨body, hbody, hclause⟩ := Results.bind_eq_ok.mp hts
  obtain rfl : clause w body = ts := Except.ok.inj hclause
  have hnames : ∀ e ∈ (conjunctionTokens cores scope (p :: ps)).consulted,
      cores.NamesSatisfy (fun _ => True) e := fun _ _ _ _ => ⟨trivial, fun _ _ => trivial⟩
  obtain ⟨n, t, ht, -, hreads⟩ :=
    conjunctionTokens_reads scope p ps hfragments hgrouping hnames body hbody
  refine ⟨body, t, rfl, ht, hreads.readCondition_eq, ?_⟩
  -- from the text the same lexemes are cut, as no name ends before its quote
  intro isQuote hapart hquotes huses hscope hmodels
  have hphrase := (Token.lexable_vocabulary hquotes).conjunctionTokens hscope p ps huses hmodels
    body hbody
  rw [readText, Query.ofTokens_sql]
  show (lex isQuote none (body.flatMap Token.args) _).bind readCondition = some t
  rw [hphrase.lex_eq hapart]
  exact hreads.readCondition_eq

/-- Conditions with arithmetic, a list, a negation and a nested statement. -/
def accountConditions : List Predicate :=
  [.or (.compare .lt (.math .sub (.column (.own "balance"))
      (.math .mul (.column (.own "id")) (.value (.integer 2)))) (.value (.integer 10)))
      (.not (.inList (.own "owner") [.integer 4, .integer 5])),
    .compare .ge (.column (.own "balance")) (.quantified .any largeAmounts)]

/-- The text of these conditions is read as their conjunction. -/
theorem conditionTokens_read_account :
    ∃ body t,
      (conditionTokens (fun _ => .default) accountScope .where accountConditions).result =
        .ok (clause .where body) ∧
      conjunctionTerm (fun _ => .default) accountScope accountConditions = some t ∧
      readText (· == '\x60') (.ofTokens body) = some t := by
  have hfragments : ∀ I : String → Prop,
      predicatesUseOnly I (fun _ => False) accountConditions := by
    simp [accountConditions, largeAmounts, Column.UsesOnly, Column.own, Expr.UsesOnly,
      Qualifier.UsesOnly, Subquery.UsesOnly, Select.UsesOnly, selectablesUseOnly,
      Selectable.UsesOnly, sourceUsesOnly, predicatesUseOnly, Predicate.UsesOnly]
  have hgrouping : ∀ p ∈ accountConditions, p.NeedsNoGrouping := by
    simp [accountConditions, Predicate.NeedsNoGrouping, Expr.NeedsNoGrouping, Expr.level,
      Arithmetic.level]
  have hmodels : ∀ e ∈ (conditionTokens (fun _ => .default) accountScope .where
      accountConditions).consulted, Cores.NamesSatisfy (fun _ => .default)
        (Unquoted (· == '\x60')) e := by
    have hconsulted : (conditionTokens (fun _ => .default) accountScope .where
        accountConditions).consulted = [("db", transfer)] := rfl
    rw [hconsulted]
    intro e he m hm
    obtain rfl := List.mem_singleton.mp he
    obtain rfl := Except.ok.inj hm
    exact ⟨by decide, by decide⟩
  obtain ⟨body, t, hclause, hterm, -, hread⟩ := conditionTokens_read (fun _ => .default)
    accountScope .where _ _ _ (hfragments _) hgrouping rfl
  refine ⟨body, t, hclause ▸ rfl, hterm, ?_⟩
  refine hread (· == '\x60') ?_ (fun _ => rfl) (hfragments _) ⟨by decide, by decide⟩ hmodels
  intro c hc
  obtain rfl : c = '\x60' := by simpa using hc
  decide

end RowMapper
