import RowMapper.Proofs.Compile.Names
import RowMapper.Proofs.Compile.Requoting
import RowMapper.Proofs.Model.Tags

/-!
# The quotes of a dialect

A dialect may quote names with a character of its own. Nothing but the quotes of names depends on
it: with another quote a statement fails with the same error, or compiles to the same arguments and
the same text with one quote for the other, and the quotes of the text, paired from the left,
enclose the identifiers of the statement and nothing else (`Statement.compile_quotedBy`).

The quote must be none of the characters that the compiler writes itself, and the caller's own words
must be free of it.
-/

namespace RowMapper

/-! ## Paired quotes -/

/-- Every second piece of a text that was cut at its quotes, from the second one on; none if the
last quote has no partner. -/
def everySecond : List (List Char) → Option (List (List Char))
  | [] => none
  | [_] => some []
  | _ :: inside :: rest => (everySecond rest).map (inside :: ·)

/-- What the quotes of a text enclose, paired from the left. -/
def insideQuotes (quote : Char) (cs : List Char) : Option (List (List Char)) :=
  everySecond (splitAt quote cs)

section

variable {quote : Char} {cs : List Char}

theorem everySecond_head (piece piece' : List Char) (pieces : List (List Char)) :
    everySecond (piece :: pieces) = everySecond (piece' :: pieces) := by
  cases pieces <;> rfl

/-- What stands before the first quote is outside. -/
theorem insideQuotes_append (h : quote ∉ cs) (ds : List Char) :
    insideQuotes quote (cs ++ ds) = insideQuotes quote ds := by
  obtain ⟨piece, pieces, hds⟩ := List.exists_cons_of_ne_nil (splitAt_ne_nil quote ds)
  rw [insideQuotes, insideQuotes, splitAt_append h hds, hds, everySecond_head]

/-- A text in quotes is the first that quotes enclose. -/
theorem insideQuotes_enclosed (h : quote ∉ cs) (ds : List Char) :
    insideQuotes quote (quote :: (cs ++ quote :: ds)) = (insideQuotes quote ds).map (cs :: ·) := by
  have hclosed : splitAt quote (quote :: ds) = [] :: splitAt quote ds := by
    rw [splitAt, if_pos rfl]
  rw [insideQuotes, insideQuotes, splitAt, if_pos rfl, splitAt_append h hclosed, List.append_nil,
    everySecond]

end

/-! ## Tokens in quotes -/

namespace Token

/-- Only the quotes of names are the character. -/
def QuotedBy (quote : Char) : Token → Prop
  | name quote' n => quote' = quote ∧ quote ∉ n.toList
  | t => quote ∉ t.text.toList

variable {quote : Char}

/-- The quotes of a text enclose its names. -/
theorem insideQuotes_chars : ∀ {ts : List Token}, (∀ t ∈ ts, t.QuotedBy quote) →
    insideQuotes quote (chars ts) = some ((names ts).map String.toList)
  | [], _ => rfl
  | t :: ts, h => by
    have hts := insideQuotes_chars fun u hu => h u (.tail _ hu)
    have ht := h t (.head _)
    rw [chars_cons]
    cases t with
    | name quote' n =>
      obtain ⟨rfl, hn⟩ := ht
      rw [toList_text_name, List.cons_append, List.append_assoc, List.singleton_append,
        insideQuotes_enclosed hn, hts, names_name]
      rfl
    | _ => exact (insideQuotes_append ht _).trans hts

end Token

/-- The character, unless it is one quote, which becomes the other. -/
def exchange (quote quote' c : Char) : Char := if c = quote then quote' else c

/-- A text without the quote is not changed. -/
theorem map_exchange {quote : Char} {cs : List Char} (h : quote ∉ cs) (quote' : Char) :
    cs.map (exchange quote quote') = cs := by
  have hkeep : ∀ c ∈ cs, exchange quote quote' c = id c := by
    intro c hc
    exact if_neg fun heq : c = quote => h (heq ▸ hc)
  rw [List.map_congr_left hkeep, List.map_id]

/-- Other quotes around names are other characters in the text. -/
theorem Token.chars_requotedAll {quote : Char} (quote' : Char) {ts : List Token}
    (h : ∀ t ∈ ts, t.QuotedBy quote) : chars (requotedAll (fun _ => quote') ts) =
      (chars ts).map (exchange quote quote') := by
  induction ts with
  | nil => rfl
  | cons t ts ih =>
    rw [requotedAll_cons, chars_cons, chars_cons, List.map_append, ih fun u hu => h u (.tail _ hu)]
    congr 1
    have ht := h t (.head _)
    cases t with
    | name quote₀ n =>
      obtain ⟨rfl, hn⟩ := ht
      simp [toList_text_name, map_exchange hn, exchange]
    | _ => exact (map_exchange ht quote').symm

theorem Token.args_requotedAll (f : Char → Char) (ts : List Token) :
    (requotedAll f ts).flatMap args = ts.flatMap args := by
  rw [requotedAll, List.flatMap_map]
  congr 1
  funext t
  cases t <;> rfl

/-! ## Queries -/

/-- The compiler writes the character itself: in a word, in a sign or as a placeholder. -/
def Written (c : Char) : Prop :=
  (∃ w : Word, c ∈ w.text.toList) ∨ (∃ s : Sign, c ∈ s.text.toList) ∨ c = '?'

/-- The usual quote is none of the characters that are written without quotes. -/
theorem not_written_backquote : ¬Written '\x60' := by
  rintro (⟨w, hw⟩ | ⟨s, hs⟩ | h)
  · cases w <;> simp [Word.text] at hw
  · cases s <;> simp [Sign.text] at hs
  · simp at h

/-- The cores with dialects that quote names with another character. -/
def Cores.quotedBy (cores : Cores) (quote : Char) : Cores :=
  fun session => { cores session with dialect := { (cores session).dialect with quote } }

theorem Cores.requoted_quotedBy (cores : Cores) (quote : Char) :
    cores.Requoted (fun _ => quote) (cores.quotedBy quote) :=
  ⟨fun _ => rfl, fun _ _ => rfl⟩

/-- The query with one quote for another. -/
def Query.exchanging (quote quote' : Char) (q : Query) : Query :=
  ⟨q.sql.map (exchange quote quote'), q.args⟩

/-- Requoting the tokens is exchanging the quotes in the text. -/
theorem Query.ofTokens_requotedAll {quote : Char} (quote' : Char) {ts : List Token}
    (h : ∀ t ∈ ts, t.QuotedBy quote) : ofTokens (Token.requotedAll (fun _ => quote') ts) =
      (ofTokens ts).exchanging quote quote' := by
  have hsql : (ofTokens (Token.requotedAll (fun _ => quote') ts)).sql =
      (ofTokens ts).sql.map (exchange quote quote') := by
    rw [← String.toList_inj, String.toList_map, ofTokens_sql, ofTokens_sql,
      Token.chars_requotedAll quote' h]
  have hargs : (ofTokens (Token.requotedAll (fun _ => quote') ts)).args = (ofTokens ts).args :=
    Token.args_requotedAll _ ts
  rw [exchanging, ← hsql, ← hargs]

/-- The tokens of a statement have the quote only around names, if the compiler does not write it
and the names and fragments are free of it. -/
theorem Statement.quotedBy_tokens {cores : Cores} {s : Statement} {quote : Char}
    (hwritten : ¬Written quote) (hquote : ∀ session, (cores session).dialect.quote = quote)
    (hnames : ∀ n ∈ s.names cores, quote ∉ n.toList)
    (hfragments : s.UsesOnly (fun _ => True) fun f => quote ∉ f.sql.toList) {ts : List Token}
    (hts : (s.tokens cores).result = .ok ts) : ∀ t ∈ ts, t.QuotedBy quote := by
  have hsign (s : Sign) : (Token.sign s).QuotedBy quote := fun h => hwritten (.inr (.inl ⟨s, h⟩))
  have V : Vocabulary cores (Token.QuotedBy quote) (· ∈ s.names cores)
      fun f => quote ∉ f.sql.toList := by
    refine ⟨fun w h => hwritten (.inl ⟨w, h⟩), fun s _ => hsign s, fun v h => ?_,
      fun session n hn => ⟨hquote session, hnames n hn⟩, fun _ hf => hf⟩
    exact hwritten (.inr (.inr (by simpa [Token.text] using h)))
  obtain ⟨body, hbody, rfl⟩ := s.phrase_of_names V hfragments hts
  intro t ht
  rcases List.mem_append.mp ht with ht | ht
  · exact hbody.forall_mem hsign t ht
  · cases s with
    | raw _ => cases ht
    | _ => exact List.mem_singleton.mp ht ▸ hsign _

/-- Only the quotes of names depend on the quote of a dialect: with another one a statement fails
with the same error, or has the same arguments and the same text with one quote for the other; and
the quotes of a text enclose the identifiers of its statement, in order. -/
theorem Statement.compile_quotedBy {cores : Cores} {s : Statement} {quote : Char}
    (hwritten : ¬Written quote) (hquote : ∀ session, (cores session).dialect.quote = quote)
    (hnames : ∀ n ∈ s.names cores, quote ∉ n.toList)
    (hfragments : s.UsesOnly (fun _ => True) fun f => quote ∉ f.sql.toList) (quote' : Char) :
    (s.compile (cores.quotedBy quote')).result =
        (s.compile cores).result.map (Query.exchanging quote quote') ∧
      ∀ q, (s.compile cores).result = .ok q →
        insideQuotes quote q.sql.toList = some ((s.names cores).map String.toList) := by
  have hstyle : s.ConflictsAlike cores (cores.quotedBy quote') := by
    cases s with
    | insert s => exact fun _ => rfl
    | _ => trivial
  -- the same tokens with other quotes; what is left is to see this in the text
  have htokens : s.tokens (cores.quotedBy quote') = _ :=
    s.tokens_requoted (cores.requoted_quotedBy quote') (fun _ _ _ _ => rfl) hstyle
  rw [compile, compile, htokens, bind_map_left, Compiled.result_bind, Compiled.result_bind]
  cases hts : (s.tokens cores).result with
  | error e => exact ⟨rfl, fun q hq => nomatch hq⟩
  | ok ts =>
    have hall := quotedBy_tokens hwritten hquote hnames hfragments hts
    refine ⟨congrArg Except.ok (Query.ofTokens_requotedAll quote' hall), fun q hq => ?_⟩
    obtain rfl : Query.ofTokens ts = q := Except.ok.inj hq
    rw [Query.ofTokens_sql, Token.insideQuotes_chars hall, s.tokens_names (M := fun _ => True)
      (fun _ _ => trivial) ts hts]

/-- The transfers from accounts. -/
def payments : Table := ⟨transfer, some "t"⟩

/-- The owners of accounts and what they transferred, but for the greatest amounts. -/
def outgoing : Select :=
  .mk "db" account
    [.column ((Column.own "owner").as "who"), .column (payments.column "amount")]
    (some (.joinOn .left (.table ⟨account, none⟩) (.table payments)
      [.compare .eq (.column (.own "id")) (.column (payments.column "accountId"))]))
    [.not (.inQuery (payments.column "amount") largeAmounts)] [] [] [] 0 0

/-- The select of outgoing amounts with double quotes around its names. -/
theorem Statement.compile_quotedBy_outgoing :
    ∃ q, ((Statement.select outgoing).compile fun _ => .default).result = .ok q ∧
      ((Statement.select outgoing).compile (Cores.quotedBy (fun _ => .default) '\x22')).result =
        .ok (q.exchanging '\x60' '\x22') ∧
      insideQuotes '\x60' q.sql.toList =
        some (["owner", "who", "t", "amount", "account", "transfer", "t", "id", "t", "account_id",
          "t", "amount", "amount", "transfer", "amount", "amount"].map String.toList) := by
  have hfragments : (Statement.select outgoing).UsesOnly (fun _ => True)
      fun f => '\x60' ∉ f.sql.toList := by
    simp [outgoing, payments, largeAmounts, Statement.UsesOnly, Column.UsesOnly, Column.own,
      Column.as, Column.qualifier, Table.column, Table.UsesOnly, Expr.UsesOnly, Qualifier.UsesOnly,
      Subquery.UsesOnly, Select.UsesOnly, selectablesUseOnly, Selectable.UsesOnly, sourceUsesOnly,
      Source.UsesOnly, predicatesUseOnly, Predicate.UsesOnly]
  obtain ⟨hexchanged, hquoted⟩ := Statement.compile_quotedBy not_written_backquote
    (fun _ : String => (rfl : Core.default.dialect.quote = '\x60')) (by decide) hfragments '\x22'
  exact ⟨_, rfl, hexchanged, hquoted _ rfl⟩

end RowMapper
