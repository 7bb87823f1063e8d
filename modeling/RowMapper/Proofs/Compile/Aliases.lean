import Mathlib.Data.List.Forall2
import RowMapper.Proofs.Binding.Selected
import RowMapper.Proofs.Compile.Phrase
import RowMapper.Proofs.Model.Declared

/-!
# Aliases in a projection

An alias is written between quotes as it is, so a quote in it can end its name early, and what comes
after that quote is read as more of the statement. An alias that holds the end of an item and the
beginning of another makes one item look like two (`Select.alias_of_two_items`).

Nothing else can go wrong. Where no alias holds a comma between quotes, its closing quote counted,
different lists of aliased fields never give the same text (`Select.aliases_determined`); aliases
without any quote are of this kind (`OneItem.of_notMem`). The columns themselves must be free of the
quote. The proof reads the two texts from the left: a column ends at the first quote, and an alias
of one text can only be longer than that of the other if it holds the end of an item.
-/

namespace RowMapper

open Token (word sign)

/-- With the quote and the comma that may follow it, a name nowhere holds a comma between quotes:
the place where an item of a list ends and another one begins. -/
def OneItem (quote : Char) (name : String) : Prop :=
  ¬[quote, ',', quote] <:+: name.toList ++ [quote, ',']

/-- A name without quotes is one item. -/
theorem OneItem.of_notMem {quote : Char} {name : String} (h : quote ∉ name.toList) :
    OneItem quote name := by
  intro hinfix
  have hcount := hinfix.sublist.count_le quote
  rw [List.count_append, List.count_eq_zero_of_not_mem h] at hcount
  simp only [List.count_cons, List.count_nil, beq_self_eq_true, if_true] at hcount
  omega

/-! ## Texts of aliased columns -/

namespace Token

/-- A column under an alias as it is written. -/
def aliased (quote : Char) (item : String × String) : List Token :=
  [.name quote item.1, blank, word .as, blank, .name quote item.2]

variable {quote : Char} {items items' : List (String × String)} {rest : List Char}

/-- What follows the closing quote of an alias: the other items after a comma, if there are any, and
the rest of the statement. -/
def afterAlias (quote : Char) (rest : List Char) : List (String × String) → List Char
  | [] => rest
  | item :: items =>
    ',' :: (chars (commaSeparated ((item :: items).map (aliased quote))) ++ rest)

theorem chars_aliased_cons (item : String × String) (items : List (String × String)) :
    chars (commaSeparated ((item :: items).map (aliased quote))) ++ rest =
      quote :: (item.1.toList ++ quote :: (" AS ".toList ++
        quote :: (item.2.toList ++ quote :: afterAlias quote rest items))) := by
  have hitem : chars (aliased quote item) = quote :: (item.1.toList ++ quote :: (" AS ".toList ++
      quote :: (item.2.toList ++ [quote]))) := by
    simp [aliased, text, Word.text, Sign.text, chars]
  cases items with
  | nil => simp [commaSeparated, hitem, afterAlias]
  | cons next items =>
    simp only [List.map_cons, commaSeparated, chars_append, chars_cons, hitem, afterAlias]
    simp [text, Sign.text]

/-- After its alias the text of an item is at least as long as the rest. -/
theorem length_le_afterAlias : rest.length ≤ (afterAlias quote rest items).length := by
  cases items with
  | nil => exact Nat.le_refl _
  | cons item items =>
    rw [afterAlias, List.length_cons, List.length_append]
    omega

/-- A name without quotes ends at the first quote after it. -/
theorem append_quote_inj {after after' : List Char} : ∀ {cs ds : List Char}, quote ∉ cs →
    quote ∉ ds → cs ++ quote :: after = ds ++ quote :: after' → cs = ds ∧ after = after'
  | [], [], _, _, h => ⟨rfl, (List.cons.inj h).2⟩
  | [], d :: ds, _, hds, h => absurd ((List.cons.inj h).1 ▸ .head _) hds
  | c :: cs, [], hcs, _, h => absurd ((List.cons.inj h).1 ▸ .head _) hcs
  | c :: cs, d :: ds, hcs, hds, h => by
    obtain ⟨rfl, hrest⟩ := List.cons.inj h
    obtain ⟨rfl, hafter⟩ :=
      append_quote_inj (fun hc => hcs (.tail _ hc)) (fun hd => hds (.tail _ hd)) hrest
    exact ⟨rfl, hafter⟩

/-- An alias that is one item does not go on where the alias of another text has ended. -/
theorem eq_nil_of_oneItem {cs more : List Char}
    (hone : ¬[quote, ',', quote] <:+: (cs ++ more) ++ [quote, ','])
    (h : quote :: afterAlias quote rest items = more ++ quote :: afterAlias quote rest items') :
    more = [] := by
  have hlength := congrArg List.length h
  rw [List.length_cons, List.length_append, List.length_cons] at hlength
  have hle : rest.length ≤ (afterAlias quote rest items').length := length_le_afterAlias
  cases items with
  | nil =>
    -- the other text ends with the rest, so there is no room for more
    rw [afterAlias] at hlength
    exact List.length_eq_zero_iff.mp (by omega)
  | cons item items =>
    rw [afterAlias, chars_aliased_cons] at h
    by_contra hmore
    apply hone
    have hprefix : [quote, ',', quote] <+: more ++ [quote, ','] := by
      match more, hmore with
      | [c], _ =>
        -- the alias has one character more, which is the quote; then the comma is its closing quote
        obtain ⟨rfl, hcomma, -⟩ : quote = c ∧ ',' = quote ∧ _ := by simpa using h
        rw [← hcomma]
        exact List.prefix_refl _
      | c :: d :: more, _ =>
        obtain ⟨rfl, rfl, hmore⟩ : quote = c ∧ ',' = d ∧
            quote :: _ = more ++ quote :: afterAlias quote rest items' := by simpa using h
        cases more with
        | nil => simp
        | cons e more =>
          obtain ⟨rfl, -⟩ := List.cons.inj hmore
          simp
    rw [List.append_assoc]
    exact hprefix.isInfix.trans (List.suffix_append cs _).isInfix

/-- Two texts that are the same up to an alias have the same alias. -/
theorem alias_unique {a a' : String} (ha : OneItem quote a) (ha' : OneItem quote a')
    (h : a.toList ++ quote :: afterAlias quote rest items =
      a'.toList ++ quote :: afterAlias quote rest items') : a = a' := by
  rcases List.append_eq_append_iff.mp h with ⟨more, hmore, heq⟩ | ⟨more, hmore, heq⟩
  · unfold OneItem at ha'
    rw [hmore] at ha'
    obtain rfl := eq_nil_of_oneItem ha' heq
    exact String.toList_inj.mp (by rw [hmore, List.append_nil])
  · unfold OneItem at ha
    rw [hmore] at ha
    obtain rfl := eq_nil_of_oneItem ha heq
    exact String.toList_inj.mp (by rw [hmore, List.append_nil])

/-- Items that are written alike are the same. -/
theorem aliased_inj : ∀ {items items' : List (String × String)}, items ≠ [] → items' ≠ [] →
    (∀ item ∈ items ++ items', quote ∉ item.1.toList ∧ OneItem quote item.2) →
    chars (commaSeparated (items.map (aliased quote))) ++ rest =
      chars (commaSeparated (items'.map (aliased quote))) ++ rest → items = items'
  | [], _, h, _, _, _ => absurd rfl h
  | _ :: _, [], _, h, _, _ => absurd rfl h
  | (c, a) :: items, (c', a') :: items', _, _, hitems, h => by
    rw [chars_aliased_cons, chars_aliased_cons] at h
    obtain ⟨hc, ha⟩ := hitems (c, a) (by simp)
    obtain ⟨hc', ha'⟩ := hitems (c', a') (by simp)
    -- a column ends at the first quote after it began
    obtain ⟨hcolumn, h⟩ := append_quote_inj hc hc' (List.cons.inj h).2
    have h := (List.cons.inj (List.append_cancel_left h)).2
    obtain rfl : c = c' := String.toList_inj.mp hcolumn
    obtain rfl : a = a' := alias_unique ha ha' h
    have hafter := (List.cons.inj (List.append_cancel_left h)).2
    have hlength := congrArg List.length hafter
    match items, items' with
    | [], [] => rfl
    | item :: items, item' :: items' =>
      have hrest := (List.cons.inj hafter).2
      rw [aliased_inj (by simp) (by simp) (fun i hi => hitems i (by simp at hi ⊢; tauto)) hrest]
    | [], item :: items =>
      simp only [afterAlias, List.length_cons, List.length_append] at hlength
      omega
    | item :: items, [] =>
      simp only [afterAlias, List.length_cons, List.length_append] at hlength
      omega

end Token

/-! ## Selects of aliased fields -/

/-- In a model with different columns a column is that of one field only. -/
theorem Model.Indexed.columnOf_inj {m : Model} (hm : m.Indexed)
    (hcolumns : (m.fields.map (·.column)).Nodup) {name name' column : String}
    (h : m.columnOf name = .ok column) (h' : m.columnOf name' = .ok column) : name = name' := by
  obtain ⟨f, hf⟩ := exists_columnOf_eq_ok.mp ⟨column, h⟩
  obtain ⟨f', hf'⟩ := exists_columnOf_eq_ok.mp ⟨column, h'⟩
  have hsame : f.column = f'.column := by
    simp only [columnOf, hf, hf', Except.ok.injEq] at h h'
    rw [h, h']
  obtain ⟨-, -, rfl⟩ := hm.field?_eq_some.mp hf
  obtain ⟨-, -, rfl⟩ := hm.field?_eq_some.mp hf'
  exact congrArg _ (List.inj_on_of_nodup_map hcolumns (field?_mem hf) (field?_mem hf') hsame)

variable {cores : Cores}

namespace Selectable

/-- Own fields under aliases as items of a projection. -/
def aliased (items : List (String × String)) : List Selectable :=
  items.map fun item => .column ((Column.own item.1).as item.2)

/-- An item of own fields is its column under its alias. -/
theorem result_tokens_aliased (scope : Scope) (field a : String) :
    ((column ((Column.own field).as a)).tokens cores scope).result =
      (scope.model.columnOf field).map fun c =>
        Token.aliased (cores scope.session).dialect.quote (c, a) := by
  rw [tokens, Compiled.result_bind, Column.result_tokens]
  simp only [Column.as, Column.own, Column.qualifier, Column.field, Column.alias?,
    Qualifier.resolve, Compiled.result_bind, Compiled.result_ofExcept]
  cases scope.model.columnOf field <;> rfl

theorem listTokens_aliased {scope : Scope} : ∀ {items : List (String × String)}
    {pieces : List (List Token)}, (listTokens cores scope (aliased items)).result = .ok pieces →
      ∃ written, List.Forall₂
          (fun item w => scope.model.columnOf item.1 = .ok w.1 ∧ item.2 = w.2) items written ∧
        pieces = written.map (Token.aliased (cores scope.session).dialect.quote)
  | [], pieces, h => by
    obtain rfl : [] = pieces := Except.ok.inj h
    exact ⟨[], .nil, rfl⟩
  | (field, a) :: items, pieces, h => by
    rw [aliased, List.map_cons, listTokens, Compiled.result_bind, result_tokens_aliased] at h
    obtain ⟨piece, hpiece, h⟩ := Results.bind_eq_ok.mp h
    rw [Compiled.result_bind] at h
    obtain ⟨rest, hrest, h⟩ := Results.bind_eq_ok.mp h
    obtain rfl : piece :: rest = pieces := Except.ok.inj h
    obtain ⟨written, hwritten, rfl⟩ := listTokens_aliased hrest
    cases hcolumn : scope.model.columnOf field with
    | error e => simp [hcolumn, Except.map] at hpiece
    | ok c =>
      rw [hcolumn] at hpiece
      obtain rfl := Except.ok.inj hpiece
      exact ⟨(c, a) :: written, .cons ⟨hcolumn, rfl⟩ hwritten, rfl⟩

theorem projectionTokens_of_ne_nil (scope : Scope) : ∀ {is : List Selectable}, is ≠ [] →
    projectionTokens cores scope is =
      listTokens cores scope is >>= fun pieces => pure (commaSeparated pieces)
  | [], h => absurd rfl h
  | _ :: _, _ => by simp only [projectionTokens]

end Selectable

namespace Select

/-- A select statement after its projection. -/
def restTokens (cores : Cores) (scope : Scope) : Select → Compiled (List Token)
  | mk _ _ _ source filters groupBy having orderBy limit offset => do
    let rows ← sourceTokens cores scope source
    let filter ← conditionTokens cores scope .where filters
    let groups ← scope.columns cores groupBy
    let group := if groupBy.isEmpty then []
      else clause .groupBy (commaSeparated (groups.map ([·])))
    let groupFilter ← conditionTokens cores scope .having having
    let orders ← orderTokens cores scope orderBy
    let order := if orderBy.isEmpty then [] else clause .orderBy (commaSeparated orders)
    return clause .from rows ++ filter ++ group ++ groupFilter ++ order ++
      countTokens .limit limit ++ countTokens .offset offset

/-- With another projection a select statement is the same after it. -/
theorem tokens_withProjection (cores : Cores) (s : Select) (is : List Selectable) :
    (s.withProjection is).tokens cores = (do
      let m ← Compiled.model cores s.session s.entity
      let scope : Scope := ⟨s.session, m⟩
      let items ← Selectable.projectionTokens cores scope is
      let rest ← s.restTokens cores scope
      return word .select :: blank :: (items ++ rest)) := by
  cases s
  simp [withProjection, tokens, restTokens, session, entity]

/-- What a select of aliased fields compiles to: each column with its alias, then the rest. -/
theorem compile_aliased {s : Select} {m : Model}
    (hm : (cores s.session).registry.model s.entity = .ok m) {items : List (String × String)}
    (hne : items ≠ []) {q : Query}
    (hq : ((Statement.select (s.withProjection (Selectable.aliased items))).compile cores).result =
      .ok q) :
    ∃ written rest, List.Forall₂ (fun item w => m.columnOf item.1 = .ok w.1 ∧ item.2 = w.2)
        items written ∧ (s.restTokens cores ⟨s.session, m⟩).result = .ok rest ∧
      q.sql.toList = Token.chars [word .select, blank] ++ (Token.chars
        (commaSeparated (written.map (Token.aliased (cores s.session).dialect.quote))) ++
          Token.chars (rest ++ [sign .semicolon])) := by
  have his : Selectable.aliased items ≠ [] := by simpa [Selectable.aliased] using hne
  simp only [Statement.compile, Statement.tokens, tokens_withProjection,
    Selectable.projectionTokens_of_ne_nil _ his, Compiled.result_bind, Compiled.result_model, hm,
    Compiled.result_pure, Results.bind_eq_ok, Except.ok.injEq, exists_eq_left'] at hq
  obtain ⟨_, ⟨_, ⟨_, ⟨pieces, hpieces, rfl⟩, rest, hrest, rfl⟩, rfl⟩, rfl⟩ := hq
  -- what is not written for the items does not depend on them
  obtain ⟨written, hwritten, rfl⟩ := Selectable.listTokens_aliased hpieces
  refine ⟨written, rest, hwritten, hrest, ?_⟩
  rw [Query.ofTokens_sql, ← Token.chars_append, ← Token.chars_append]
  simp

/-- Columns free of the quote and aliases that are one item are written so. -/
theorem oneItem_of_written {quote : Char} {m : Model}
    (hquote : ∀ f ∈ m.fields, quote ∉ f.column.toList) {items written : List (String × String)}
    (hwritten : List.Forall₂ (fun item w => m.columnOf item.1 = .ok w.1 ∧ item.2 = w.2) items
      written) (hone : ∀ item ∈ items, OneItem quote item.2) :
    ∀ w ∈ written, quote ∉ w.1.toList ∧ OneItem quote w.2 := by
  induction hwritten with
  | nil => simp
  | @cons item w items written h _ ih =>
    obtain ⟨hitem, hitems⟩ := List.forall_mem_cons.mp hone
    obtain ⟨f, hf, hcolumn⟩ := List.mem_map.mp (Model.mem_of_columnOf h.1)
    exact List.forall_mem_cons.mpr ⟨⟨hcolumn ▸ hquote f hf, h.2 ▸ hitem⟩, ih hitems⟩

/-- Aliases do not change what a select of fields looks like: if the columns of an entity are
different and free of the quote, and every alias is one item, then two lists of aliased fields that
give the same text are equal. -/
theorem aliases_determined {s : Select} {m : Model}
    (hnames : (s.entity.fields.map (·.name)).Nodup) (hsound : (cores s.session).registry.Sound)
    (hm : (cores s.session).registry.model s.entity = .ok m)
    (hcolumns : (m.fields.map (·.column)).Nodup)
    (hquote : ∀ f ∈ m.fields, (cores s.session).dialect.quote ∉ f.column.toList)
    {items items' : List (String × String)} (hne : items ≠ []) (hne' : items' ≠ [])
    (hone : ∀ item ∈ items ++ items', OneItem (cores s.session).dialect.quote item.2)
    {q q' : Query}
    (hq : ((Statement.select (s.withProjection (Selectable.aliased items))).compile cores).result =
      .ok q)
    (hq' : ((Statement.select (s.withProjection (Selectable.aliased items'))).compile
      cores).result = .ok q')
    (hsql : q.sql = q'.sql) : items = items' := by
  obtain ⟨written, rest, hwritten, hrest, htext⟩ := compile_aliased hm hne hq
  obtain ⟨written', rest', hwritten', hrest', htext'⟩ := compile_aliased hm hne' hq'
  obtain rfl : rest = rest' := Except.ok.inj (hrest.symm.trans hrest')
  obtain ⟨hone, hone'⟩ := List.forall_mem_append.mp hone
  -- the rest of the statement is the same, so the texts differ in the written items only
  have hsame : written = written' := by
    rw [hsql, htext'] at htext
    refine Token.aliased_inj ?_ ?_ ?_ (List.append_cancel_left htext).symm
    · rintro rfl
      exact hne (List.forall₂_nil_right_iff.mp hwritten)
    · rintro rfl
      exact hne' (List.forall₂_nil_right_iff.mp hwritten')
    · exact List.forall_mem_append.mpr
        ⟨oneItem_of_written hquote hwritten hone, oneItem_of_written hquote hwritten' hone'⟩
  subst hsame
  -- different fields have different columns
  have hunique : Relator.LeftUnique fun (item w : String × String) =>
      m.columnOf item.1 = .ok w.1 ∧ item.2 = w.2 := by
    rintro ⟨field, a⟩ ⟨field', a'⟩ ⟨column, a''⟩ ⟨hcolumn, rfl⟩ ⟨hcolumn', rfl⟩
    obtain rfl : field = field' :=
      ((hsound.model hm).indexed hnames).columnOf_inj hcolumns hcolumn hcolumn'
    rfl
  exact List.left_unique_forall₂' hunique hwritten hwritten'

/-- The accounts with fields under aliases. -/
def accountsUnder (items : List (String × String)) : Select :=
  (Select.all "db" account).withProjection (Selectable.aliased items)

/-- An alias with a quote in it, which is still one item: no other list of fields under aliases
without quotes gives the same text. -/
theorem aliases_determined_quoted :
    ∃ q, ((Statement.select (accountsUnder [("owner", "who`s"), ("balance", "left")])).compile
        fun _ => .default).result = .ok q ∧
      q.sql = "SELECT `owner` AS `who`s`,`balance` AS `left` FROM `account`;" ∧
      ∀ items q', items ≠ [] → (∀ item ∈ items, '\x60' ∉ item.2.toList) →
        ((Statement.select (accountsUnder items)).compile fun _ => .default).result = .ok q' →
        q'.sql = q.sql → items = [("owner", "who`s"), ("balance", "left")] := by
  refine ⟨_, rfl, by decide, fun items q' hne hfree hq' hsql => ?_⟩
  have hone : ∀ item ∈ items ++ [("owner", "who`s"), ("balance", "left")],
      OneItem Core.default.dialect.quote item.2 :=
    List.forall_mem_append.mpr ⟨fun item hitem => .of_notMem (hfree item hitem),
      by unfold OneItem; decide⟩
  exact @aliases_determined (fun _ => .default) (Select.all "db" account) _ (by decide)
    Registry.sound_empty rfl (by decide) (by decide) _ _ hne (by simp) hone _ _ hq' rfl hsql

/-- An alias can hold the end of its own item and another item: one aliased field then gives the
same text as two. -/
theorem alias_of_two_items :
    ∃ m q, Core.default.registry.model account = .ok m ∧ (m.fields.map (·.column)).Nodup ∧
      (∀ f ∈ m.fields, '\x60' ∉ f.column.toList) ∧
      ((Statement.select (accountsUnder [("owner", "x"), ("balance", "y")])).compile
        fun _ => .default).result = .ok q ∧
      ((Statement.select (accountsUnder [("owner", "x`,`balance` AS `y")])).compile
        fun _ => .default).result = .ok q ∧
      [("owner", "x"), ("balance", "y")] ≠ [("owner", "x`,`balance` AS `y")] :=
  ⟨_, _, rfl, by decide, by decide, rfl, rfl, by decide⟩

end Select

end RowMapper
