import RowMapper.Proofs.Compile.Names

/-!
# One statement, with its parentheses closed

A subquery is compiled as a statement of its own and stands in parentheses within another one, at
any depth. Whatever is nested, the text of a statement has one semicolon, which ends it, and its
parentheses close in order (`Statement.compile_single`), as long as the caller's own words have
neither.

A semicolon is only in the terminator, since no token of a phrase has one. Parentheses are only in
the two ways in which a phrase groups another, so that a phrase is balanced by induction.
-/

namespace RowMapper

/-! ## Balanced texts -/

/-- As many parentheses close as open, and none closes before it was opened. -/
structure Balanced (cs : List Char) : Prop where
  counts : cs.count '(' = cs.count ')'
  prefixes : ∀ us, us <+: cs → us.count ')' ≤ us.count '('

namespace Balanced

variable {cs ds : List Char}

/-- A text without parentheses. -/
theorem of_notMem (hopen : '(' ∉ cs) (hclose : ')' ∉ cs) : Balanced cs where
  counts := by rw [List.count_eq_zero.mpr hopen, List.count_eq_zero.mpr hclose]
  prefixes us hus := by
    rw [List.count_eq_zero.mpr fun h => hclose (hus.subset h)]
    exact Nat.zero_le _

/-- Balanced texts one after the other: a prefix that reaches into the second has all of the
first. -/
theorem append (hc : Balanced cs) (hd : Balanced ds) : Balanced (cs ++ ds) where
  counts := by rw [List.count_append, List.count_append, hc.counts, hd.counts]
  prefixes us := by
    rintro ⟨rest, h⟩
    rcases List.append_eq_append_iff.mp h with ⟨vs, rfl, -⟩ | ⟨vs, rfl, rfl⟩
    -- the prefix ends in the first text, or goes on into the second
    · exact hc.prefixes us (List.prefix_append us vs)
    · rw [List.count_append, List.count_append, hc.counts]
      exact Nat.add_le_add_left (hd.prefixes vs (List.prefix_append vs rest)) _

/-- A balanced text in parentheses. -/
theorem wrap (hc : Balanced cs) : Balanced ('(' :: (cs ++ [')'])) where
  counts := by simp [hc.counts]
  prefixes us hus := by
    rcases List.prefix_cons_iff.mp hus with rfl | ⟨vs, rfl, hvs⟩
    · simp
    -- either all of it, with both parentheses, or one that has not closed the first yet
    rcases List.prefix_concat_iff.mp hvs with rfl | hvs
    · simp [hc.counts]
    · have hle := hc.prefixes vs hvs
      simp only [List.count_cons_self, List.count_cons_of_ne (by decide : '(' ≠ ')')]
      omega

end Balanced

/-! ## Texts of phrases -/

/-- A text that neither ends a statement nor opens or closes a group. -/
def Flat (cs : List Char) : Prop := ';' ∉ cs ∧ '(' ∉ cs ∧ ')' ∉ cs

instance (cs : List Char) : Decidable (Flat cs) := inferInstanceAs (Decidable (_ ∧ _ ∧ _))

theorem Flat.append {cs ds : List Char} (hc : Flat cs) (hd : Flat ds) : Flat (cs ++ ds) := by
  simp only [Flat, List.mem_append, not_or] at *
  exact ⟨⟨hc.1, hd.1⟩, ⟨hc.2.1, hd.2.1⟩, hc.2.2, hd.2.2⟩

/-- No word of SQL has a parenthesis or a semicolon. -/
theorem Word.flat (w : Word) : Flat w.text.toList := by
  cases w <;> decide

/-- Parentheses and semicolons are signs, but not operators. -/
theorem Sign.flat_operator {s : Sign} (h : s ∈ operators) : Flat s.text.toList := by
  rcases mem_operators.mp h with rfl | rfl | rfl | rfl | rfl | rfl | rfl | rfl | rfl <;> decide

theorem Sign.flat_separator {s : Sign} (h : s ∈ separators) : Flat s.text.toList := by
  rcases mem_separators.mp h with rfl | rfl | rfl <;> decide

/-- A text that is balanced and goes on without a semicolon. -/
structure Closed (cs : List Char) : Prop where
  balanced : Balanced cs
  semicolon : ';' ∉ cs

namespace Closed

variable {cs ds : List Char}

theorem of_flat (h : Flat cs) : Closed cs := ⟨.of_notMem h.2.1 h.2.2, h.1⟩

theorem append (hc : Closed cs) (hd : Closed ds) : Closed (cs ++ ds) :=
  ⟨hc.balanced.append hd.balanced, by simp [hc.semicolon, hd.semicolon]⟩

/-- Parentheses around a closed text: this is where nested statements come in. -/
theorem wrap (hc : Closed cs) : Closed ('(' :: (cs ++ [')'])) :=
  ⟨hc.balanced.wrap, by simp [hc.semicolon]⟩

end Closed

/-- A phrase of flat tokens is closed: nothing but its groups has parentheses. -/
theorem Phrase.closed {ts : List Token} (h : Phrase (fun t => Flat t.text.toList) ts) :
    Closed (Token.chars ts) := by
  induction h with
  | nil => exact .of_flat (by decide)
  | leaf ht => simpa [Token.chars] using Closed.of_flat ht
  | group _ ih =>
    rw [Token.chars_parenthesized]
    exact ih.wrap
  | call _ _ iht ihu =>
    rw [Token.chars_append, Token.chars_parenthesized]
    exact iht.append ihu.wrap
  | separated hs _ _ iht ihu =>
    rw [Token.chars_append, Token.chars_cons]
    exact iht.append ((Closed.of_flat (Sign.flat_separator hs)).append ihu)
  | assigned hname _ ih =>
    rw [Token.chars_cons, Token.chars_cons]
    exact (Closed.of_flat hname).append ((Closed.of_flat (by decide)).append ih)

/-! ## Texts of statements -/

/-- A vocabulary without semicolons and parentheses. -/
theorem Vocabulary.flat {cores : Cores} {ns : List String}
    (hquote : ∀ session, Flat [(cores session).dialect.quote])
    (hnames : ∀ n ∈ ns, Flat n.toList) :
    Vocabulary cores (fun t => Flat t.text.toList) (· ∈ ns) fun f => Flat f.sql.toList where
  word := Word.flat
  operator _ := Sign.flat_operator
  bound _ := by
    show Flat "?".toList
    decide
  name session n hn := by
    rw [Token.toList_text_name]
    exact (hquote session).append ((hnames n hn).append (hquote session))
  fragment _ hf := hf

/-- A text that is one statement: a semicolon ends it and is its only one, and its parentheses are
balanced. -/
structure Single (cs : List Char) : Prop where
  semicolons : cs.count ';' = 1
  last : cs.getLast? = some ';'
  balanced : Balanced cs

/-- A semicolon after a closed text makes one statement of it. -/
theorem Closed.single {cs : List Char} (h : Closed cs) : Single (cs ++ [';']) where
  semicolons := by rw [List.count_append, List.count_eq_zero.mpr h.semicolon]; rfl
  last := List.getLast?_concat
  balanced := h.balanced.append (.of_notMem (by decide) (by decide))

/-- A statement of any kind but the caller's own compiles to the text of one statement, whatever is
nested in it. -/
theorem Statement.compile_single {cores : Cores} {s : Statement} {q : Query}
    (hkind : s.kind ≠ .raw) (hquote : ∀ session, Flat [(cores session).dialect.quote])
    (hnames : ∀ n ∈ s.names cores, Flat n.toList)
    (hfragments : s.UsesOnly (fun _ => True) fun f => Flat f.sql.toList)
    (hq : (s.compile cores).result = .ok q) : Single q.sql.toList := by
  rw [compile, Compiled.result_bind, Results.bind_eq_ok] at hq
  obtain ⟨ts, hts, hq⟩ := hq
  obtain rfl : Query.ofTokens ts = q := by simpa using hq
  obtain ⟨body, hbody, rfl⟩ := s.phrase_of_names (.flat hquote hnames) hfragments hts
  have hterminator : s.terminator = [.sign .semicolon] := by
    cases s <;> first | rfl | exact absurd rfl hkind
  rw [Query.ofTokens_sql, hterminator, Token.chars_append]
  exact hbody.closed.single

/-- An insert whose conflict clause has a subquery in it. -/
def replacement : Insert :=
  { session := "db", entity := account, rows := [EntityType.initial _], fields := []
    upsert? := some ⟨["id"], [.column (.own "owner"), .value "balance" (.math .add
      (.subquery largeAmounts) (.fragment ⟨"DEFAULT", []⟩))]⟩ }

/-- The insert is one statement. -/
theorem Statement.compile_single_replacement :
    ∃ q, ((Statement.insert replacement).compile fun _ => .default).result = .ok q ∧
      Single q.sql.toList := by
  have hfragments : (Statement.insert replacement).UsesOnly (fun _ => True)
      fun f => Flat f.sql.toList := by
    intro u hu
    obtain rfl := Option.some.inj hu
    have hdefault : Flat "DEFAULT".toList := by decide
    simpa [largeAmounts, Assignment.UsesOnly, Column.UsesOnly, Column.own, Expr.UsesOnly,
      Qualifier.UsesOnly, Subquery.UsesOnly, Select.UsesOnly, selectablesUseOnly,
      Selectable.UsesOnly, sourceUsesOnly, predicatesUseOnly, Predicate.UsesOnly] using hdefault
  exact ⟨_, rfl, compile_single (s := .insert replacement)
    (by decide) (fun _ : String => (by decide : Flat [Core.default.dialect.quote])) (by decide)
    hfragments rfl⟩

end RowMapper
