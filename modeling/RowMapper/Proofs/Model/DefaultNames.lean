import RowMapper.Proofs.Model.Precedence

/-!
# Default names tell types apart

The default name of a type can be read backwards: with every letter after an underscore in upper
case, and the underscores dropped, it is the name of the type again (`camelName`). So different type
names give different tables. Names without upper-case letters are default names of themselves, and
a default name of ASCII is one of these, so that taking default names twice is taking them once.

`underscoreName_apart` says all this of names, and of the tables and columns of default models. What
is needed of single characters is in `Text.lowercaseOf?_ascii`; the inductions are on the characters
after the first one.
-/

namespace RowMapper

/-! ## Characters -/

namespace Text

/-- A property of all characters of ASCII, by their codes. -/
@[elab_as_elim]
theorem ascii_cases {P : Char → Prop} (c : Char) (hc : c.val < 0x80)
    (h : ∀ n : Fin 128, P (Char.ofNat n)) : P c := by
  have hcode := h ⟨c.toNat, hc⟩
  rwa [Char.ofNat_toNat] at hcode

/-- An upper-case letter of ASCII becomes one letter, which leads back to it. -/
theorem lowercaseOf?_ascii {c : Char} (hc : c.val < 0x80) : lowercaseOf? c = none ∨
    lowercaseOf? c = some [c.toLower] ∧ c.toLower.toUpper = c ∧ c.toLower ≠ '_' ∧
      lowercaseOf? c.toLower = none :=
  ascii_cases c hc (by decide)

/-- What is left of a character in lower case is not in upper case. -/
theorem lowercaseOf?_of_mem {c d : Char} (hc : c.val < 0x80)
    (hd : d ∈ (lowercaseOf? c).getD [c]) : lowercaseOf? d = none := by
  rcases lowercaseOf?_ascii hc with hnone | ⟨hsome, -, -, hlower⟩
  · rw [hnone, Option.getD_none, List.mem_singleton] at hd
    rwa [hd]
  · rw [hsome, Option.getD_some, List.mem_singleton] at hd
    rwa [hd]

theorem lowercaseOf?_of_isUpper {c : Char} (hc : c.val < 0x80) :
    c.isUpper = true → lowercaseOf? c ≠ none :=
  ascii_cases c hc (by decide)

end Text

/-! ## Names -/

/-- All characters of a name are of ASCII. -/
def IsAscii (name : String) : Prop := ∀ c ∈ name.toList, c.val < 0x80

/-- No character of a name is in upper case. -/
def HasNoCapitals (name : String) : Prop := ∀ c ∈ name.toList, Text.lowercaseOf? c = none

/-- A name of ASCII in words that begin with upper-case letters, without underscores. -/
structure IsCamelName (name : String) : Prop where
  ascii : IsAscii name
  first : ∃ c ∈ name.toList.head?, c.isUpper = true
  plain : '_' ∉ name.toList

/-- The characters of a name with every letter after an underscore in upper case, and without the
underscores. `capital` says whether the first letter is to be in upper case too. -/
def camelChars : Bool → List Char → List Char
  | _, [] => []
  | capital, c :: cs =>
    if c = '_' then camelChars true cs
    else (if capital then c.toUpper else c) :: camelChars false cs

/-- The name whose words are those between the underscores of a name. -/
def camelName (name : String) : String := String.ofList (camelChars true name.toList)

theorem underscoreRest_cons (c : Char) (cs : List Char) : underscoreRest (c :: cs) =
    (match Text.lowercaseOf? c with
      | some lower => '_' :: lower
      | none => [c]) ++ underscoreRest cs :=
  List.flatMap_cons

/-- Where there are no underscores in a name, those that are put in say where its capitals were. -/
theorem camelChars_underscoreRest : ∀ {cs : List Char}, (∀ c ∈ cs, c.val < 0x80) → '_' ∉ cs →
    camelChars false (underscoreRest cs) = cs
  | [], _, _ => rfl
  | c :: cs, hascii, hplain => by
    have ih := camelChars_underscoreRest (fun d hd => hascii d (.tail _ hd))
      fun hmem => hplain (.tail _ hmem)
    have hne : c ≠ '_' := fun heq => hplain (heq ▸ .head _)
    rw [underscoreRest_cons]
    rcases Text.lowercaseOf?_ascii (hascii c (.head _)) with hc | ⟨hc, hupper, hlower, -⟩
    · simp only [hc, List.singleton_append, camelChars, if_neg hne, Bool.false_eq_true, if_false,
        ih]
    · simp only [hc, List.cons_append, List.nil_append, camelChars, if_true, if_neg hlower, hupper,
        ih]

/-- The name of a type is read off its default name. -/
theorem IsCamelName.camelName_underscoreName {name : String} (h : IsCamelName name) :
    camelName (underscoreName name) = name := by
  obtain ⟨hascii, ⟨c, hfirst, hc⟩, hplain⟩ := h
  unfold IsAscii at hascii
  have hchars : camelChars true (underscoreChars name.toList) = name.toList := by
    cases hname : name.toList with
    | nil => simp [hname] at hfirst
    | cons c' cs =>
      rw [hname] at hfirst hascii hplain
      obtain rfl : c' = c := by simpa using hfirst
      have hrest := camelChars_underscoreRest (fun d hd => hascii d (.tail _ hd))
        fun hmem => hplain (.tail _ hmem)
      have hcode := hascii c' (.head _)
      obtain ⟨hlower, hupper, hne, -⟩ := (Text.lowercaseOf?_ascii hcode).resolve_left
        (Text.lowercaseOf?_of_isUpper hcode hc)
      simp only [underscoreChars, hlower, Option.getD_some, List.singleton_append, camelChars,
        if_neg hne, if_true, hupper, hrest]
  rw [camelName, underscoreName, String.toList_ofList, hchars, String.ofList_toList]

/-- A name without capitals stays as it is. -/
theorem underscoreRest_of_lower : ∀ {cs : List Char}, (∀ c ∈ cs, Text.lowercaseOf? c = none) →
    underscoreRest cs = cs
  | [], _ => rfl
  | c :: cs, h => by
    rw [underscoreRest_cons, h c (.head _), underscoreRest_of_lower fun d hd => h d (.tail _ hd)]
    rfl

/-- A name without upper-case letters is its own default name. -/
theorem HasNoCapitals.underscoreName_eq {name : String} (h : HasNoCapitals name) :
    underscoreName name = name := by
  unfold HasNoCapitals at h
  have hchars : underscoreChars name.toList = name.toList := by
    cases hname : name.toList with
    | nil => rfl
    | cons c cs =>
      rw [hname] at h
      rw [underscoreChars, h c (.head _), underscoreRest_of_lower fun d hd => h d (.tail _ hd)]
      rfl
  rw [underscoreName, hchars, String.ofList_toList]

/-- No capital is left. -/
theorem lower_of_mem_underscoreRest {cs : List Char} (h : ∀ c ∈ cs, c.val < 0x80) {d : Char}
    (hd : d ∈ underscoreRest cs) : Text.lowercaseOf? d = none := by
  obtain ⟨c, hc, hd⟩ := List.mem_flatMap.mp hd
  cases hlower : Text.lowercaseOf? c with
  | none =>
    rw [hlower] at hd
    exact Text.lowercaseOf?_of_mem (h c hc) (by rwa [hlower])
  | some lower =>
    rw [hlower] at hd
    rcases List.mem_cons.mp hd with rfl | hd
    · rfl
    · exact Text.lowercaseOf?_of_mem (h c hc) (by rwa [hlower])

/-- A default name of ASCII has no upper-case letters. -/
theorem IsAscii.hasNoCapitals_underscoreName {name : String} (h : IsAscii name) :
    HasNoCapitals (underscoreName name) := by
  unfold IsAscii at h
  intro d hd
  rw [underscoreName, String.toList_ofList] at hd
  cases hname : name.toList with
  | nil => simp [hname, underscoreChars] at hd
  | cons c cs =>
    rw [hname] at h hd
    rw [underscoreChars, List.mem_append] at hd
    rcases hd with hd | hd
    · exact Text.lowercaseOf?_of_mem (h c (.head _)) hd
    · exact lower_of_mem_underscoreRest (fun c hc => h c (.tail _ hc)) hd

/-! ## Default models -/

namespace Model

variable {T : EntityType} {m : Model}

theorem tableName_ofEntity (hm : ofEntity T = .ok m) (h : T.tableName = none) :
    m.tableName = underscoreName T.name := by
  obtain ⟨-, fields, -, rfl⟩ := ofEntity_eq_ok hm
  rw [ofFields, h, Option.getD_none]

/-- A field is stored under its default name if its tag names no column. -/
theorem column_ofEntity (hm : ofEntity T = .ok m) {i : ℕ} {f : FieldDecl}
    (hf : T.fields[i]? = some f) (htag : Tag.values Tag.columnKey f.tag = []) :
    ∃ g, m.fields[i]? = some g ∧ g.name = f.name ∧ g.column = underscoreName f.name := by
  rw [ofEntity_eq] at hm
  cases hfault : T.registrationFault? [] with
  | some e => simp [hfault] at hm
  | none =>
    rw [hfault] at hm
    obtain rfl := Except.ok.inj hm
    refine ⟨f.stored i (f.columnWith []), ?_, rfl, ?_⟩
    · simp [ofFields, EntityType.fieldsWith, hf]
    · simp [FieldDecl.stored, FieldDecl.columnWith, FieldDecl.taggedColumn, htag]

end Model

/-- Default names tell types apart. Names of ASCII in words that begin with upper-case letters can
be read off their default names, so they have different ones, and different default tables. Names
without upper-case letters stay as they are, as names of tables and of columns. Default names of
ASCII are such names. -/
theorem underscoreName_apart :
    (∀ name, IsCamelName name → camelName (underscoreName name) = name) ∧
    (∀ name name', IsCamelName name → IsCamelName name' →
      underscoreName name = underscoreName name' → name = name') ∧
    (∀ name, HasNoCapitals name → underscoreName name = name) ∧
    (∀ name, IsAscii name → underscoreName (underscoreName name) = underscoreName name) ∧
    (∀ (T T' : EntityType) (m m' : Model), Model.ofEntity T = .ok m → Model.ofEntity T' = .ok m' →
      T.tableName = none → T'.tableName = none → IsCamelName T.name → IsCamelName T'.name →
      m.tableName = m'.tableName → T.name = T'.name) ∧
    ∀ (T : EntityType) (m : Model), Model.ofEntity T = .ok m →
      (T.tableName = none → HasNoCapitals T.name → m.tableName = T.name) ∧
      ∀ (i : ℕ) (f : FieldDecl), T.fields[i]? = some f →
        Tag.values Tag.columnKey f.tag = [] → HasNoCapitals f.name →
        ∃ g, m.fields[i]? = some g ∧ g.name = f.name ∧ g.column = f.name := by
  have hinjective : ∀ name name', IsCamelName name → IsCamelName name' →
      underscoreName name = underscoreName name' → name = name' := by
    intro name name' h h' heq
    rw [← h.camelName_underscoreName, heq, h'.camelName_underscoreName]
  refine ⟨fun _ h => h.camelName_underscoreName, hinjective, fun _ h => h.underscoreName_eq,
    fun _ h => h.hasNoCapitals_underscoreName.underscoreName_eq, ?_, fun T m hm => ⟨?_, ?_⟩⟩
  · intro T T' m m' hm hm' htable htable' hname hname' heq
    rw [Model.tableName_ofEntity hm htable, Model.tableName_ofEntity hm' htable'] at heq
    exact hinjective _ _ hname hname' heq
  · intro htable hname
    rw [Model.tableName_ofEntity hm htable, hname.underscoreName_eq]
  · intro i f hf htag hname
    obtain ⟨g, hg, hgname, hcolumn⟩ := Model.column_ofEntity hm hf htag
    exact ⟨g, hg, hgname, hcolumn.trans hname.underscoreName_eq⟩

/-- Two type names that differ in the case of one letter have different tables. -/
theorem underscoreName_apart_dbUser :
    ∃ m m', Model.ofEntity (.integers "DBUser2" ["id"]) = .ok m ∧
      Model.ofEntity (.integers "DbUser2" ["id"]) = .ok m' ∧ m.tableName = "d_b_user2" ∧
      camelName m.tableName = "DBUser2" ∧ m.tableName ≠ m'.tableName := by
  have hname : IsCamelName "DBUser2" :=
    ⟨by simp [IsAscii], ⟨'D', by simp, by decide⟩, by simp⟩
  have hname' : IsCamelName "DbUser2" :=
    ⟨by simp [IsAscii], ⟨'D', by simp, by decide⟩, by simp⟩
  refine ⟨_, _, rfl, rfl, by decide, underscoreName_apart.1 _ hname, fun heq => ?_⟩
  have hsame := underscoreName_apart.2.2.2.2.1 (.integers "DBUser2" ["id"])
    (.integers "DbUser2" ["id"]) _ _ rfl rfl rfl rfl hname hname' heq
  exact absurd hsame (by decide)

end RowMapper
