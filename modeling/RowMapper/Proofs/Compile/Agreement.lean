import RowMapper.Proofs.Binding.Strategies
import RowMapper.Proofs.Compile.Requoting

/-!
# Compilation with other cores

Where two collections of cores agree on dialects and models, every statement compiles to the same
tokens and asks for the same models: they are each other's requoted cores, with the quotes
unchanged.

Values of records are read with the strategy of a session. Where the models are made from well
formed declarations the strategies agree too, so the whole query is the same
(`Statement.compile_bindingBy`).
-/

namespace RowMapper

/-- Two collections of cores have the same dialects and give the same models. -/
structure Cores.Agree (cores cores' : Cores) : Prop where
  dialect : ∀ session, (cores session).dialect = (cores' session).dialect
  model : ∀ session T, (cores session).registry.model T = (cores' session).registry.model T

theorem Cores.Agree.requoted {cores cores' : Cores} (h : cores.Agree cores') :
    cores.Requoted id cores' :=
  ⟨fun session => by rw [h.dialect, id], fun session T => (h.model session T).symm⟩

/-- A statement compiles alike with cores that agree and read alike. -/
theorem Statement.compile_congr {cores cores' : Cores} (h : cores.Agree cores') (s : Statement)
    (hread : s.ReadsAlike cores cores') : s.compile cores = s.compile cores' := by
  have hstyle : s.ConflictsAlike cores cores' := by
    cases s with
    | insert s => exact fun _ => by rw [h.dialect]
    | _ => trivial
  rw [compile, compile, s.tokens_requoted h.requoted hread hstyle, Token.requotedAll_id, id_map]

/-- The cores with sessions binding by other strategies. -/
def Cores.bindingBy (cores : Cores) (strategies : String → Strategy) : Cores :=
  fun session => { cores session with strategy := strategies session }

theorem Cores.agree_bindingBy (cores : Cores) (strategies : String → Strategy) :
    (cores.bindingBy strategies).Agree cores :=
  ⟨fun _ => rfl, fun _ _ => rfl⟩

/-- Where models are made from declarations, and that of a statement is well formed, the statement
compiles alike whatever strategies its sessions have. -/
theorem Statement.compile_bindingBy {cores : Cores} {s : Statement} (hentity : s.entity.WellFormed)
    (hsound : (cores s.session).registry.Sound) (strategies : String → Strategy) :
    s.compile (cores.bindingBy strategies) = s.compile cores :=
  compile_congr (cores.agree_bindingBy strategies) s fun _ hm r field =>
    Binding.field_eq hentity (hsound.model hm).describes _ _ r field

end RowMapper
