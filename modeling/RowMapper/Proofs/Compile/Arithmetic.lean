import Mathlib.Tactic.Ring
import RowMapper.Proofs.Compile.Conditions
import RowMapper.Proofs.Compile.Names

/-!
# Arithmetic as text

Arithmetic is written without parentheses. So its text is read as the same operands and operators
grouped anew, products first and from the left (`Expr.regroup`). The value of the text is that of
the tree where grouping anew changes nothing: where sums and differences are not within an operand
of a product, nor within the right operand of a difference (`Expr.KeepsGrouping`). For any other
nesting of operators there are numbers for which the two values differ
(`Expr.Arithmetical.text_value`).

The regrouped tree is followed by what it adds up to: the sum of what stands before the last
product, and the last product (`Tally`). An operand changes a tally by its operator alone
(`Tally.step`), so the value of a text is that of a run over its operands (`Expr.run`).
-/

namespace RowMapper

/-! ## Values -/

/-- The result of an operation. -/
def Arithmetic.apply : Arithmetic → ℤ → ℤ → ℤ
  | add, a, b => a + b
  | sub, a, b => a - b
  | mul, a, b => a * b

/-- The value of a tree of arithmetic, given the values of columns. No other tree has one. -/
def Term.evaluate (env : Option String → String → ℤ) : Term → Option ℤ
  | .column qualifier? name => some (env qualifier? name)
  | .value (.integer n) => some n.toInt
  | .math op left right => do
    let a ← left.evaluate env
    let b ← right.evaluate env
    return op.apply a b
  | _ => none

namespace Expr

/-- A column or a bound integer. -/
inductive Operand : Expr → Prop where
  | column (c : Column) : Operand (.column c)
  | integer (n : Int64) : Operand (.value (.integer n))

/-- Arithmetic of columns and bound integers. -/
inductive Arithmetical : Expr → Prop where
  | operand {e : Expr} (h : Operand e) : Arithmetical e
  | math (op : Arithmetic) {left right : Expr} (hl : Arithmetical left) (hr : Arithmetical right) :
      Arithmetical (.math op left right)

/-- No sum or difference stands in an expression. -/
def IsProduct : Expr → Prop
  | .math .mul left right => left.IsProduct ∧ right.IsProduct
  | .math _ _ _ => False
  | _ => True

/-- No sum or difference stands within an operand of a product, nor within the right operand of a
difference. -/
def KeepsGrouping : Expr → Prop
  | .math .add left right => left.KeepsGrouping ∧ right.KeepsGrouping
  | .math .sub left right => left.KeepsGrouping ∧ right.IsProduct
  | .math .mul left right => left.IsProduct ∧ right.IsProduct
  | _ => True

/-- The value of arithmetic, given the values of its operands. -/
def total (values : Expr → ℤ) : Expr → ℤ
  | .math op left right => op.apply (left.total values) (right.total values)
  | e => values e

theorem Operand.total_eq {e : Expr} (h : Operand e) (values : Expr → ℤ) :
    e.total values = values e := by
  cases h <;> rfl

/-! ## Grouping anew -/

/-- A regrouped expression with one more operand after it. -/
def extend : Arithmetic → Expr → Expr → Expr
  | .mul, .math .add left right, u => .math .add left (.math .mul right u)
  | .mul, .math .sub left right, u => .math .sub left (.math .mul right u)
  | op, e, u => .math op e u

/-- A regrouped expression with the operands of another one after it. -/
def follow (op : Arithmetic) (e : Expr) : Expr → Expr
  | .math op' left right => follow op' (follow op e left) right
  | u => extend op e u

/-- The expression with products grouped first, and everything from the left. -/
def regroup : Expr → Expr
  | .math op left right => follow op left.regroup right
  | e => e

theorem Operand.follow_eq {u : Expr} (h : Operand u) (op : Arithmetic) (e : Expr) :
    follow op e u = extend op e u := by
  cases h <;> rfl

theorem Operand.regroup_eq {e : Expr} (h : Operand e) : e.regroup = e := by
  cases h <;> rfl

/-! The text stays the same. -/

section

variable (cores : Cores) (scope : Scope)

/-- Where a factor is taken in by the last operand of a sum, the text is the same: there are no
parentheses in it. -/
theorem tokens_extend (op : Arithmetic) (e u : Expr) :
    (extend op e u).tokens cores scope = (Expr.math op e u).tokens cores scope := by
  unfold extend
  split <;> simp [tokens, Arithmetic.sign]

/-- One operand after another: the text goes on as it would without grouping. -/
theorem Arithmetical.tokens_follow {u : Expr} (hu : u.Arithmetical) (op : Arithmetic) (e : Expr) :
    (follow op e u).tokens cores scope = (Expr.math op e u).tokens cores scope := by
  induction hu generalizing op e with
  | operand h => rw [h.follow_eq, tokens_extend]
  | math op' _ _ ihl ihr =>
    rw [follow, ihr, tokens, ihl]
    simp [tokens]

/-- Grouping anew does not change the text, so the text cannot tell the two trees apart. -/
theorem Arithmetical.tokens_regroup {e : Expr} (he : e.Arithmetical) :
    e.regroup.tokens cores scope = e.tokens cores scope := by
  induction he with
  | operand h => rw [h.regroup_eq]
  | math op _ hr ihl _ => rw [regroup, hr.tokens_follow, tokens, tokens, ihl]

end

/-! The regrouped expression needs no parentheses. -/

/-- Arithmetic that needs no parentheses. -/
structure Grouped (e : Expr) : Prop where
  arithmetical : e.Arithmetical
  needsNone : e.NeedsNoGrouping

theorem Operand.grouped {e : Expr} (h : Operand e) : Grouped e :=
  ⟨.operand h, by cases h <;> trivial⟩

/-- Operands bind tighter than any operator. -/
theorem Operand.level_eq {e : Expr} (h : Operand e) : e.level = 7 := by
  cases h <;> rfl

theorem Arithmetical.le_level {e : Expr} (h : e.Arithmetical) : 5 ≤ e.level := by
  cases h with
  | operand h => rw [h.level_eq]; decide
  | math op _ _ =>
    show 5 ≤ op.level
    cases op <;> decide

/-- An operation of expressions that bind tight enough needs no parentheses. -/
theorem Grouped.math {left right : Expr} {op : Arithmetic} (hl : Grouped left) (hr : Grouped right)
    (hleft : op.level ≤ left.level) (hright : op.level < right.level) :
    Grouped (.math op left right) :=
  ⟨.math op hl.arithmetical hr.arithmetical, hleft, hright, hl.needsNone, hr.needsNone⟩

/-- One more operand keeps an expression free of parentheses, since a factor goes to the last
product. -/
theorem Grouped.extend {e u : Expr} (he : Grouped e) (hu : Operand u) (op : Arithmetic) :
    Grouped (extend op e u) := by
  have hbinds (op : Arithmetic) : op.level < u.level := by
    rw [hu.level_eq]
    cases op <;> decide
  cases op with
  | add | sub => exact he.math hu.grouped he.arithmetical.le_level (hbinds _)
  | mul =>
    cases he.arithmetical with
    | operand h =>
      have hextend : Expr.extend .mul e u = .math .mul e u := by cases h <;> rfl
      rw [hextend]
      exact he.math hu.grouped (by rw [h.level_eq]; decide) (hbinds .mul)
    | math op' hl hr =>
      obtain ⟨hleft, hright, hnl, hnr⟩ := he.needsNone
      -- after a sum or difference, its last operand takes the factor
      have hproduct {right' : Expr} (h : Grouped right') (hlevel : 6 ≤ right'.level) :
          Grouped (.math .mul right' u) := h.math hu.grouped hlevel (hbinds .mul)
      cases op' with
      | add | sub => exact .math ⟨hl, hnl⟩ (hproduct ⟨hr, hnr⟩ hright) hleft (Nat.lt_succ_self 5)
      | mul => exact hproduct he (Nat.le_refl 6)

/-- So do the operands of another expression, one after another. -/
theorem Arithmetical.grouped_follow {u : Expr} (hu : u.Arithmetical) {e : Expr} (he : Grouped e)
    (op : Arithmetic) : Grouped (follow op e u) := by
  induction hu generalizing op e with
  | operand h =>
    rw [h.follow_eq]
    exact he.extend h op
  | math op' _ _ ihl ihr => exact ihr (ihl he op) op'

/-- Grouped anew, arithmetic needs no parentheses. -/
theorem Arithmetical.grouped_regroup {e : Expr} (he : e.Arithmetical) : Grouped e.regroup := by
  induction he with
  | operand h =>
    rw [h.regroup_eq]
    exact h.grouped
  | math op _ hr ihl _ => exact hr.grouped_follow ihl op

/-! ## Running totals -/

end Expr

/-- What a text adds up to: the sum of what stands before its last product, and this product. -/
structure Tally where
  sum : ℤ
  product : ℤ

namespace Tally

/-- Nothing yet. -/
def zero : Tally := ⟨0, 0⟩

/-- The value of the text. -/
def total (σ : Tally) : ℤ := σ.sum + σ.product

/-- The text with one more operand. -/
def step (op : Arithmetic) (σ : Tally) (v : ℤ) : Tally :=
  match op with
  | .add => ⟨σ.total, v⟩
  | .sub => ⟨σ.total, -v⟩
  | .mul => ⟨σ.sum, σ.product * v⟩

variable (σ : Tally)

/-- The factor one changes nothing. -/
theorem total_step_mul_one : (σ.step .mul 1).total = σ.total := by
  simp [step, total]

/-- The factor zero leaves what stands before the last product. -/
theorem total_step_mul_zero : (σ.step .mul 0).total = σ.sum := by
  simp [step, total]

/-- Adding zero changes nothing. -/
theorem total_step_add_zero : (σ.step .add 0).total = σ.total := by
  simp [step, total]

/-- Subtracting zero changes nothing. -/
theorem total_step_sub_zero : (σ.step .sub 0).total = σ.total := by
  simp [step, total]

/-- After the operand zero the last product is zero. -/
theorem sum_step_zero (op : Arithmetic) : (σ.step op 0).sum = (σ.step op 0).total := by
  cases op <;> simp [step, total]

end Tally

namespace Expr

variable {values : Expr → ℤ}

/-- What a text adds up to with the operands of an expression after it. -/
def run (values : Expr → ℤ) : Expr → Arithmetic → Tally → Tally
  | .math op' left right, op, σ => right.run values op' (left.run values op σ)
  | u, op, σ => σ.step op (values u)

theorem Operand.run_eq {u : Expr} (h : Operand u) (op : Arithmetic) (σ : Tally) :
    u.run values op σ = σ.step op (values u) := by
  cases h <;> rfl

/-- What the text of a regrouped expression adds up to. -/
def tally (values : Expr → ℤ) : Expr → Tally
  | .math .add left right => ⟨left.total values, right.total values⟩
  | .math .sub left right => ⟨left.total values, -right.total values⟩
  | e => ⟨0, e.total values⟩

/-- What a regrouped expression adds up to is its value. -/
theorem total_tally (e : Expr) : (e.tally values).total = e.total values := by
  unfold tally
  split
  · rfl
  · exact (Int.sub_eq_add_neg ..).symm
  · exact Int.zero_add _

/-- An operand changes what an expression adds up to by its operator, wherever it is grouped. -/
theorem tally_extend (op : Arithmetic) (e : Expr) {u : Expr} (hu : Operand u) :
    (extend op e u).tally values = (e.tally values).step op (values u) := by
  rw [← hu.total_eq values]
  cases op with
  | add | sub => exact congrArg (Tally.mk · _) (total_tally e).symm
  | mul =>
    cases e with
    | math op' left right =>
      cases op' with
      | sub => exact congrArg (Tally.mk _) (Int.neg_mul ..).symm
      | _ => rfl
    | _ => rfl

/-- The operands of another expression change it one by one. -/
theorem Arithmetical.tally_follow {u : Expr} (hu : u.Arithmetical) (op : Arithmetic) (e : Expr) :
    (follow op e u).tally values = u.run values op (e.tally values) := by
  induction hu generalizing op e with
  | operand h => rw [h.follow_eq, tally_extend op e h, h.run_eq]
  | math op' _ _ ihl ihr => rw [follow, ihr, ihl, run]

theorem Operand.tally_eq {e : Expr} (h : Operand e) : e.tally values = ⟨0, values e⟩ := by
  cases h <;> rfl

/-- The value of the regrouped expression is that of a run over its operands from the left. -/
theorem Arithmetical.total_regroup {e : Expr} (he : e.Arithmetical) :
    e.regroup.total values = (e.run values .add .zero).total := by
  have htally : e.regroup.tally values = e.run values .add .zero := by
    induction he with
    | operand h => rw [h.regroup_eq, h.tally_eq, h.run_eq]; rfl
    | math op _ hr ihl _ => rw [regroup, hr.tally_follow, ihl, run]
  rw [← total_tally, htally]

/-! ## Nestings that keep their value -/

/-- The operands of a product change a total as the product itself would. -/
theorem Arithmetical.run_product {e : Expr} (he : e.Arithmetical) (h : e.IsProduct)
    (op : Arithmetic) (σ : Tally) : e.run values op σ = σ.step op (e.total values) := by
  induction he generalizing op σ with
  | operand hu => rw [hu.run_eq, hu.total_eq]
  | math op' _ _ ihl ihr =>
    cases op' with
    | mul =>
      rw [run, ihl h.1, ihr h.2, total, Arithmetic.apply]
      cases op <;> simp [Tally.step, mul_assoc]
    | _ => exact h.elim

/-- Where grouping is kept, a sum that is run through after others adds its own value. -/
theorem Arithmetical.total_run {e : Expr} (he : e.Arithmetical) (h : e.KeepsGrouping)
    (σ : Tally) : (e.run values .add σ).total = σ.total + e.total values := by
  induction he generalizing σ with
  | operand hu => rw [hu.run_eq, hu.total_eq]; rfl
  | math op hl hr ihl ihr =>
    cases op with
    | add => rw [run, ihr h.2, ihl h.1, total, Arithmetic.apply, Int.add_assoc]
    | sub =>
      have hleft := ihl h.1 σ
      rw [run, hr.run_product h.2, total, Arithmetic.apply, ← Int.add_sub_assoc, ← hleft]
      rfl
    | mul =>
      rw [run, hl.run_product h.1, hr.run_product h.2]
      rfl

/-! ## Nestings that do not -/

/-- The first expression is the second with a number in the place of every operand. -/
inductive Fills : Expr → Expr → Prop where
  | operand {u : Expr} (h : Operand u) (n : Int64) : Fills (.value (.integer n)) u
  | math (op : Arithmetic) {left' left right' right : Expr} (hl : Fills left' left)
      (hr : Fills right' right) : Fills (.math op left' right') (.math op left right)

/-- Zero for every operand. -/
def zeros : Expr → Expr
  | .math op left right => .math op left.zeros right.zeros
  | _ => .value (.integer 0)

/-- One for the operands of the first product, and zero for the others. -/
def lead : Expr → Expr
  | .math .mul left right => .math .mul left.lead right.lead
  | .math .add left right => .math .add left.lead right.zeros
  | .math .sub left right => .math .sub left.lead right.zeros
  | _ => .value (.integer 1)

/-- Zeros stand in the place of every operand. -/
theorem Arithmetical.fills_zeros {e : Expr} (he : e.Arithmetical) : e.zeros.Fills e := by
  induction he with
  | operand h => cases h <;> exact .operand (by constructor) 0
  | math op _ _ ihl ihr => exact .math op ihl ihr

/-- Ones and zeros stand in the place of every operand. -/
theorem Arithmetical.fills_lead {e : Expr} (he : e.Arithmetical) : e.lead.Fills e := by
  induction he with
  | operand h => cases h <;> exact .operand (by constructor) 1
  | math op _ hr ihl ihr =>
    cases op with
    | mul => exact .math .mul ihl ihr
    | add | sub => exact .math _ ihl hr.fills_zeros

/-- Bound integers have their own value. -/
def Faithful (values : Expr → ℤ) : Prop := ∀ n : Int64, values (.value (.integer n)) = n.toInt

section

variable (hvalues : Faithful values)
include hvalues

/-- Zeros alone come to zero. -/
theorem Arithmetical.total_zeros {e : Expr} (he : e.Arithmetical) :
    e.zeros.total values = 0 := by
  induction he with
  | operand h => cases h <;> exact hvalues 0
  | math op _ _ ihl ihr =>
    rw [zeros, total, ihl, ihr]
    cases op <;> rfl

/-- A run over zeros is a step with zero: only the operator before them counts. -/
theorem Arithmetical.run_zeros {e : Expr} (he : e.Arithmetical) (op : Arithmetic) (σ : Tally) :
    e.zeros.run values op σ = σ.step op 0 := by
  induction he generalizing op σ with
  | operand h => cases h <;> exact congrArg (σ.step op) (hvalues 0)
  | math op' _ _ ihl ihr =>
    rw [zeros, run, ihl, ihr]
    cases op <;> cases op' <;> simp [Tally.step, Tally.total]

/-- The tree of a leading one has the value one. -/
theorem Arithmetical.total_lead {e : Expr} (he : e.Arithmetical) : e.lead.total values = 1 := by
  induction he with
  | operand h => cases h <;> exact hvalues 1
  | math op _ hr ihl ihr =>
    cases op with
    | mul => rw [lead, total, ihl, ihr]; rfl
    | add | sub => rw [lead, total, ihl, hr.total_zeros hvalues]; rfl

/-- A run over a leading one comes to the total of a step with one. -/
theorem Arithmetical.total_run_lead {e : Expr} (he : e.Arithmetical) (op : Arithmetic)
    (σ : Tally) : (e.lead.run values op σ).total = (σ.step op 1).total := by
  induction he generalizing op σ with
  | operand h => cases h <;> exact congrArg (fun v => (σ.step op v).total) (hvalues 1)
  | math op' _ hr ihl ihr =>
    -- whatever follows the first operand, zeros add nothing and ones as factors change nothing
    cases op' with
    | mul => rw [lead, run, ihr, Tally.total_step_mul_one, ihl]
    | add => rw [lead, run, hr.run_zeros hvalues, Tally.total_step_add_zero, ihl]
    | sub => rw [lead, run, hr.run_zeros hvalues, Tally.total_step_sub_zero, ihl]

end

/-- The last product of an expression is zero, and what stands before it is a one in the first
place. -/
def EndsInZero (e : Expr) : Prop :=
  ∀ values, Faithful values → ∀ op σ, (e.run values op σ).sum = (σ.step op 1).total

/-- The first product of an expression is zero, and what comes after it adds up to `d`, whatever
stands before; as a tree it has one of these two values. -/
def StartsWithZero (e : Expr) (d : ℤ) : Prop :=
  ∀ values, Faithful values → (e.total values = 0 ∨ e.total values = d) ∧
    ∀ op σ, (e.run values op σ).total = (σ.step op 0).total + d

/-- The text of an expression has another value than its tree. -/
def Misread (e : Expr) : Prop :=
  ∀ values, Faithful values → (e.run values .add .zero).total ≠ e.total values

section

variable {left right l r : Expr}

/-- Zeros as a factor keep the last product zero. -/
theorem EndsInZero.mul_zeros (h : EndsInZero l) (hr : right.Arithmetical) :
    EndsInZero (.math .mul l right.zeros) := by
  intro values hvalues op σ
  rw [run, hr.run_zeros hvalues, ← h values hvalues]
  rfl

/-- A leading one as the first factor changes nothing of what follows. -/
theorem EndsInZero.lead_mul (hl : left.Arithmetical) (h : EndsInZero r) :
    EndsInZero (.math .mul left.lead r) := by
  intro values hvalues op σ
  rw [run, h values hvalues, Tally.total_step_mul_one, hl.total_run_lead hvalues]

/-- A sum or difference of a leading one and zeros ends in zero. -/
theorem EndsInZero.lead_zeros {op : Arithmetic} (hop : op ≠ .mul) (hl : left.Arithmetical)
    (hr : right.Arithmetical) : EndsInZero (.math op left.lead right.zeros) := by
  intro values hvalues op' σ
  rw [run, hr.run_zeros hvalues, ← hl.total_run_lead hvalues]
  cases op with
  | mul => exact absurd rfl hop
  | add | sub => rfl

/-- An expression with a sum or difference can be filled so that it ends in zero. -/
theorem Arithmetical.exists_endsInZero {e : Expr} (he : e.Arithmetical) (hsum : ¬e.IsProduct) :
    ∃ e', Fills e' e ∧ EndsInZero e' := by
  induction he with
  | operand h => cases h <;> exact absurd trivial hsum
  | @math op left right hl hr ihl ihr =>
    cases op with
    | mul =>
      by_cases hright : right.IsProduct
      · obtain ⟨l, hfills, h⟩ := ihl fun hleft => hsum ⟨hleft, hright⟩
        exact ⟨_, .math .mul hfills hr.fills_zeros, h.mul_zeros hr⟩
      · obtain ⟨r, hfills, h⟩ := ihr hright
        exact ⟨_, .math .mul hl.fills_lead hfills, h.lead_mul hl⟩
    | add | sub =>
      exact ⟨_, .math _ hl.fills_lead hr.fills_zeros, .lead_zeros (by decide) hl hr⟩

/-- A leading one as a factor leaves a start with zero as it is. -/
theorem StartsWithZero.mul_lead {d : ℤ} (h : StartsWithZero l d) (hr : right.Arithmetical) :
    StartsWithZero (.math .mul l right.lead) d := by
  intro values hvalues
  obtain ⟨htotal, hrun⟩ := h values hvalues
  refine ⟨?_, fun op σ => ?_⟩
  · rw [total, hr.total_lead hvalues, Arithmetic.apply, mul_one]
    exact htotal
  · rw [run, hr.total_run_lead hvalues, Tally.total_step_mul_one, hrun]

/-- Zeros as a first factor make the tree zero, but the text only up to the first sum or
difference. -/
theorem StartsWithZero.zeros_mul {d : ℤ} (hl : left.Arithmetical) (h : StartsWithZero r d) :
    StartsWithZero (.math .mul left.zeros r) d := by
  intro values hvalues
  refine ⟨.inl ?_, fun op σ => ?_⟩
  · rw [total, hl.total_zeros hvalues, Arithmetic.apply, zero_mul]
  · rw [run, (h values hvalues).2, hl.run_zeros hvalues, Tally.total_step_mul_zero,
      Tally.sum_step_zero]

/-- A sum or difference of zeros and a leading one starts with zero, and comes to one or minus
one. -/
theorem StartsWithZero.zeros_lead {op : Arithmetic} (hop : op ≠ .mul) (hl : left.Arithmetical)
    (hr : right.Arithmetical) :
    StartsWithZero (.math op left.zeros right.lead) (op.apply 0 1) := by
  intro values hvalues
  refine ⟨.inr ?_, fun op' σ => ?_⟩
  · rw [total, hl.total_zeros hvalues, hr.total_lead hvalues]
  · rw [run, hr.total_run_lead hvalues, hl.run_zeros hvalues]
    cases op with
    | mul => exact absurd rfl hop
    | add | sub => rfl

/-- An expression with a sum or difference can be filled so that it starts with zero, and goes on
with something else. -/
theorem Arithmetical.exists_startsWithZero {e : Expr} (he : e.Arithmetical)
    (hsum : ¬e.IsProduct) : ∃ e' d, Fills e' e ∧ StartsWithZero e' d ∧ d ≠ 0 := by
  induction he with
  | operand h => cases h <;> exact absurd trivial hsum
  | @math op left right hl hr ihl ihr =>
    cases op with
    | mul =>
      by_cases hright : right.IsProduct
      · obtain ⟨l, d, hfills, h, hd⟩ := ihl fun hleft => hsum ⟨hleft, hright⟩
        exact ⟨_, d, .math .mul hfills hr.fills_lead, h.mul_lead hr, hd⟩
      · obtain ⟨r, d, hfills, h, hd⟩ := ihr hright
        exact ⟨_, d, .math .mul hl.fills_zeros hfills, h.zeros_mul hl, hd⟩
    | add | sub =>
      exact ⟨_, _, .math _ hl.fills_zeros hr.fills_lead, .zeros_lead (by decide) hl hr, by decide⟩

/-- A sum is misread if its right operand is and zeros stand on the left. -/
theorem Misread.zeros_add (hl : left.Arithmetical) (h : Misread r) :
    Misread (.math .add left.zeros r) := by
  intro values hvalues
  rw [run, hl.run_zeros hvalues, total, hl.total_zeros hvalues, Arithmetic.apply, zero_add]
  exact h values hvalues

/-- A sum is misread if its left operand is and zeros stand on the right. -/
theorem Misread.add_zeros (h : Misread l) (hr : right.Arithmetical) :
    Misread (.math .add l right.zeros) := by
  intro values hvalues
  rw [run, hr.run_zeros hvalues, Tally.total_step_add_zero, total, hr.total_zeros hvalues,
    Arithmetic.apply, add_zero]
  exact h values hvalues

/-- A difference is misread if its left operand is. -/
theorem Misread.sub_zeros (h : Misread l) (hr : right.Arithmetical) :
    Misread (.math .sub l right.zeros) := by
  intro values hvalues
  rw [run, hr.run_zeros hvalues, Tally.total_step_sub_zero, total, hr.total_zeros hvalues,
    Arithmetic.apply, sub_zero]
  exact h values hvalues

/-- After zeros and an operator, the text adds what comes after the first product. -/
theorem StartsWithZero.total_run {d : ℤ} (hl : left.Arithmetical) (h : StartsWithZero r d)
    (hvalues : Faithful values) (op : Arithmetic) :
    (run values (.math op left.zeros r) .add .zero).total = d := by
  rw [run, (h values hvalues).2, hl.run_zeros hvalues]
  cases op <;> exact Int.zero_add d

/-- The tree subtracts what comes after the first product, but the text adds it. -/
theorem StartsWithZero.misread_sub {d : ℤ} (hl : left.Arithmetical) (h : StartsWithZero r d)
    (hd : d ≠ 0) : Misread (.math .sub left.zeros r) := by
  intro values hvalues
  have htotal := (h values hvalues).1
  rw [h.total_run hl hvalues, total, hl.total_zeros hvalues, Arithmetic.apply]
  omega

/-- The tree multiplies all of the right operand by zero, but the text only its first product. -/
theorem StartsWithZero.misread_mul {d : ℤ} (hl : left.Arithmetical) (h : StartsWithZero r d)
    (hd : d ≠ 0) : Misread (.math .mul left.zeros r) := by
  intro values hvalues
  rw [h.total_run hl hvalues, total, hl.total_zeros hvalues, Arithmetic.apply, zero_mul]
  exact hd

/-- The tree multiplies all of the left operand by zero, but the text only its last product. -/
theorem EndsInZero.misread_mul (h : EndsInZero l) (hr : right.Arithmetical) :
    Misread (.math .mul l right.zeros) := by
  intro values hvalues
  have hread : (run values (.math .mul l right.zeros) .add .zero).total = 1 := by
    rw [run, hr.run_zeros hvalues, Tally.total_step_mul_zero, h values hvalues]
    rfl
  rw [hread, total, hr.total_zeros hvalues, Arithmetic.apply, mul_zero]
  exact one_ne_zero

/-- An expression that does not keep its grouping can be filled so that it is misread. -/
theorem Arithmetical.exists_misread {e : Expr} (he : e.Arithmetical)
    (hgroups : ¬e.KeepsGrouping) : ∃ e', Fills e' e ∧ Misread e' := by
  induction he with
  | operand h => cases h <;> exact absurd trivial hgroups
  | @math op left right hl hr ihl ihr =>
    cases op with
    | add =>
      -- one of the operands loses its grouping; the other one is filled so that it does not matter
      by_cases hleft : left.KeepsGrouping
      · obtain ⟨r, hfills, h⟩ := ihr fun hright => hgroups ⟨hleft, hright⟩
        exact ⟨_, .math .add hl.fills_zeros hfills, h.zeros_add hl⟩
      · obtain ⟨l, hfills, h⟩ := ihl hleft
        exact ⟨_, .math .add hfills hr.fills_zeros, h.add_zeros hr⟩
    | sub =>
      by_cases hright : right.IsProduct
      · obtain ⟨l, hfills, h⟩ := ihl fun hleft => hgroups ⟨hleft, hright⟩
        exact ⟨_, .math .sub hfills hr.fills_zeros, h.sub_zeros hr⟩
      -- the right operand begins with a product, and only this one is subtracted in the text
      · obtain ⟨r, d, hfills, h, hd⟩ := hr.exists_startsWithZero hright
        exact ⟨_, .math .sub hl.fills_zeros hfills, h.misread_sub hl hd⟩
    | mul =>
      by_cases hleft : left.IsProduct
      · obtain ⟨r, d, hfills, h, hd⟩ :=
          hr.exists_startsWithZero fun hright => hgroups ⟨hleft, hright⟩
        exact ⟨_, .math .mul hl.fills_zeros hfills, h.misread_mul hl hd⟩
      -- only the last product of the left operand becomes a factor in the text
      · obtain ⟨l, hfills, h⟩ := hl.exists_endsInZero hleft
        exact ⟨_, .math .mul hfills hr.fills_zeros, h.misread_mul hr⟩

end

/-! ## The value of a text -/

section

variable {cores : Cores} {scope : Scope} {M : String × EntityType → Prop}

/-- Where no parentheses are needed, the text is read as the tree. -/
theorem Arithmetical.tokens_reads {e : Expr} (he : e.Arithmetical) (hnone : e.NeedsNoGrouping) :
    (e.tokens cores scope).Ensures M (ReadsFrom e.level (e.term cores scope)) := by
  induction he with
  | operand h =>
    cases h with
    | column c => exact c.tokens_reads scope
    | integer n => exact .pure ⟨7, _, rfl, Nat.le_refl _, .value _⟩
  | math op _ _ ihl ihr =>
    obtain ⟨hleft, hright, hl, hr⟩ := hnone
    exact math_reads op (ihl hl) (ihr hr) hleft hright

/-- The text of arithmetic consists of its signs, placeholders and names. -/
theorem Arithmetical.tokens_phrase {e : Expr} (he : e.Arithmetical) {P : Token → Prop}
    (hoperator : ∀ s ∈ Sign.operators, P (.sign s)) (hbound : ∀ v, P (.bound v))
    (hname : ∀ n ∈ e.names cores scope, P (scope.name cores n)) :
    (e.tokens cores scope).Ensures M (Phrase P) := by
  induction he with
  | operand h =>
    cases h with
    | column c =>
      refine .bind .self fun r hr => .pure ?_
      obtain ⟨alias?, column⟩ := r
      have hnames : names cores scope (.column c) = alias?.toList ++ [column] := by
        rw [names, Column.names, hr]
      rw [hnames] at hname
      cases alias? with
      | none => exact .leaf (hname column (by simp))
      | some a =>
        exact .separated (by decide) (.leaf (hname a (by simp))) (.leaf (hname column (by simp)))
    | integer n => exact .pure (.leaf (hbound _))
  | math op _ _ ihl ihr =>
    simp only [names, List.mem_append] at hname
    refine .bind (ihl fun n hn => hname n (.inl hn)) fun l hl => ?_
    refine .bind (ihr fun n hn => hname n (.inr hn)) fun r hr => .pure (.binary ?_ hl hr)
    exact hoperator _ (by cases op <;> decide)

/-- The value of an operand, given the values of columns. -/
def operandValue (cores : Cores) (scope : Scope) (env : Option String → String → ℤ) (u : Expr) :
    ℤ :=
  ((u.term cores scope).bind (Term.evaluate env)).getD 0

theorem faithful_operandValue (env : Option String → String → ℤ) :
    Faithful (operandValue cores scope env) := fun _ => rfl

/-- The value of a tree is that of its expression. -/
theorem Arithmetical.evaluate_term {e : Expr} (he : e.Arithmetical) {t : Term}
    (ht : e.term cores scope = some t) (env : Option String → String → ℤ) :
    t.evaluate env = some (e.total (operandValue cores scope env)) := by
  induction he generalizing t with
  | operand h =>
    rw [h.total_eq, operandValue, ht]
    cases h with
    | column c =>
      obtain ⟨r, -, rfl⟩ := Option.map_eq_some_iff.mp ht
      rfl
    | integer n =>
      obtain rfl : .value (.integer n) = t := Option.some.inj ht
      rfl
  | math op _ _ ihl ihr =>
    rw [term] at ht
    obtain ⟨l, hl, ht⟩ := Option.bind_eq_some_iff.mp ht
    obtain ⟨r, hr, ht⟩ := Option.bind_eq_some_iff.mp ht
    obtain rfl : .math op l r = t := Option.some.inj ht
    rw [Term.evaluate, ihl hl, ihr hr]
    rfl

/-- Arithmetic that compiles has a tree. -/
theorem Arithmetical.tokens_term {e : Expr} (he : e.Arithmetical) :
    (e.tokens cores scope).Ensures M fun _ => ∃ t, e.term cores scope = some t := by
  induction he with
  | operand h =>
    refine ((Arithmetical.operand h).tokens_reads h.grouped.needsNone).mono fun _ hreads => ?_
    obtain ⟨-, t, ht, -⟩ := hreads
    exact ⟨t, ht⟩
  | math op _ _ ihl ihr =>
    refine .bind ihl fun _ hl => .bind ihr fun _ hr => .pure ?_
    obtain ⟨l, hl⟩ := hl
    obtain ⟨r, hr⟩ := hr
    exact ⟨.math op l r, by rw [term, hl, hr]; rfl⟩

/-- The text of arithmetic is read as the regrouped tree, which has the value of a run over the
operands from the left. -/
theorem Arithmetical.reads_regroup {e : Expr} (he : e.Arithmetical) {ts : List Token}
    (hts : (e.tokens cores scope).result = .ok ts) :
    ∃ t u, e.term cores scope = some t ∧
      readCondition (ts.flatMap Token.lexemes) = some u ∧ ∀ env,
        t.evaluate env = some (e.total (operandValue cores scope env)) ∧
          u.evaluate env = some (e.run (operandValue cores scope env) .add .zero).total := by
  obtain ⟨t, ht⟩ := he.tokens_term (M := fun _ => True) (fun _ _ => trivial) ts hts
  -- both trees have the same text, and the regrouped one is read from it
  have hgrouped := he.grouped_regroup
  have hreads : (e.regroup.tokens cores scope).Ensures (fun _ => True)
      (ReadsFrom e.regroup.level (e.regroup.term cores scope)) :=
    hgrouped.arithmetical.tokens_reads hgrouped.needsNone
  rw [he.tokens_regroup] at hreads
  obtain ⟨n, u, hu, -, hreads⟩ := hreads (fun _ _ => trivial) ts hts
  refine ⟨t, u, ht, hreads.readCondition_eq, fun env => ⟨he.evaluate_term ht env, ?_⟩⟩
  rw [hgrouped.arithmetical.evaluate_term hu env, he.total_regroup]

/-- Numbers for operands make arithmetic that compiles. -/
theorem Fills.compiles (cores : Cores) (scope : Scope) {e' e : Expr} (h : e'.Fills e) :
    e'.Arithmetical ∧ ∃ ts, (e'.tokens cores scope).result = .ok ts := by
  induction h with
  | operand _ n => exact ⟨.operand (.integer n), _, rfl⟩
  | math op _ _ ihl ihr =>
    obtain ⟨hl, l, hlok⟩ := ihl
    obtain ⟨hr, r, hrok⟩ := ihr
    refine ⟨.math op hl hr, l ++ blank :: Token.sign op.sign :: blank :: r, ?_⟩
    simp only [tokens, Compiled.result_bind, hlok, hrok]
    rfl

/-- Where names are free of quotes, the text is cut into the lexemes of its tokens. -/
theorem Arithmetical.readText_eq {e : Expr} (he : e.Arithmetical) {ts : List Token}
    (hts : (e.tokens cores scope).result = .ok ts) {isQuote : Char → Bool}
    (hapart : QuotesApart isQuote) (hquote : isQuote (cores scope.session).dialect.quote = true)
    (hnames : ∀ n ∈ e.names cores scope, Unquoted isQuote n) :
    readText isQuote (.ofTokens ts) = readCondition (ts.flatMap Token.lexemes) := by
  have hname : ∀ n ∈ e.names cores scope, (scope.name cores n).Lexable isQuote := by
    refine fun n hn => ⟨hquote, fun hmem => ?_⟩
    have hfree := hnames n hn _ hmem
    rw [hquote] at hfree
    exact absurd hfree (by decide)
  have hphrase : (e.tokens cores scope).Ensures (fun _ => True)
      (Phrase (Token.Lexable isQuote)) :=
    he.tokens_phrase (fun _ hs => hs) (fun _ => trivial) hname
  rw [readText, Query.ofTokens_sql]
  show (lex isQuote none (ts.flatMap Token.args) _).bind readCondition = _
  rw [(hphrase (fun _ _ => trivial) ts hts).lex_eq hapart, Option.bind_some]

/-- The value of arithmetic and of its text. The text is read by the precedence of SQL, from its
lexemes, and from its characters with its arguments in order where names are free of quotes. It has
the value of the tree whatever the columns hold, if no sum or difference stands within an operand of
a product or within the right operand of a difference. Any other nesting of the operators can be
filled with numbers so that the two values differ. -/
theorem Arithmetical.text_value {e : Expr} (he : e.Arithmetical) {ts : List Token}
    (hts : (e.tokens cores scope).result = .ok ts) :
    ∃ t u, e.term cores scope = some t ∧ readCondition (ts.flatMap Token.lexemes) = some u ∧
      (∀ isQuote, QuotesApart isQuote → isQuote (cores scope.session).dialect.quote = true →
        (∀ n ∈ e.names cores scope, Unquoted isQuote n) →
          readText isQuote (.ofTokens ts) = some u) ∧
      (e.KeepsGrouping → ∀ env, ∃ v, t.evaluate env = some v ∧ u.evaluate env = some v) ∧
      (¬e.KeepsGrouping → ∃ e' : Expr, ∃ ts' t' u', e'.Fills e ∧
        (e'.tokens cores scope).result = .ok ts' ∧ e'.term cores scope = some t' ∧
        readCondition (ts'.flatMap Token.lexemes) = some u' ∧
        ∀ env, ∃ v w, t'.evaluate env = some v ∧ u'.evaluate env = some w ∧ v ≠ w) := by
  obtain ⟨t, u, ht, hu, hvalues⟩ := he.reads_regroup hts
  refine ⟨t, u, ht, hu, fun isQuote hapart hquote hnames => ?_, fun hkeeps env => ?_,
    fun hgroups => ?_⟩
  · have htext := he.readText_eq hts hapart hquote hnames
    rw [htext, hu]
  · refine ⟨_, (hvalues env).1, ?_⟩
    rw [(hvalues env).2, he.total_run hkeeps]
    exact congrArg some (Int.zero_add _)
  · obtain ⟨e', hfills, hmisread⟩ := he.exists_misread hgroups
    obtain ⟨he', ts', hts'⟩ := hfills.compiles cores scope
    obtain ⟨t', u', ht', hu', hvalues'⟩ := he'.reads_regroup hts'
    refine ⟨e', ts', t', u', hfills, hts', ht', hu', fun env => ?_⟩
    exact ⟨_, _, (hvalues' env).1, (hvalues' env).2,
      (hmisread _ (faithful_operandValue env)).symm⟩

end

/-- The sum of a difference, with a product in it, and another sum. -/
def nestedSum : Expr :=
  .math .add (.math .sub (.column (.own "balance")) (.math .mul (.column (.own "id"))
    (.value (.integer 2)))) (.math .add (.column (.own "owner")) (.value (.integer 1)))

/-- The text of the nested sum has the value of its tree, although it has no parentheses. -/
theorem Arithmetical.text_value_nestedSum :
    ∃ ts t u, (nestedSum.tokens (fun _ => .default) accountScope).result = .ok ts ∧
      nestedSum.term (fun _ => .default) accountScope = some t ∧
      readText (· == '\x60') (.ofTokens ts) = some u ∧
      ∀ env, ∃ v, t.evaluate env = some v ∧ u.evaluate env = some v := by
  have harith : nestedSum.Arithmetical :=
    .math _ (.math _ (.operand (.column _)) (.math _ (.operand (.column _))
      (.operand (.integer 2)))) (.math _ (.operand (.column _)) (.operand (.integer 1)))
  have hkeeps : nestedSum.KeepsGrouping := by
    simp [nestedSum, KeepsGrouping, IsProduct]
  have hapart : QuotesApart (· == '\x60') := by
    intro c hc
    obtain rfl : c = '\x60' := by simpa using hc
    decide
  have htext := Arithmetical.text_value harith
    (rfl : (nestedSum.tokens (fun _ => .default) accountScope).result = .ok _)
  obtain ⟨t, u, ht, -, hread, hvalue, -⟩ := htext
  exact ⟨_, t, u, rfl, ht, hread _ hapart rfl (by decide), hvalue hkeeps⟩

/-- Twice a balance and one. -/
def doubled : Expr :=
  .math .mul (.math .add (.column (.own "balance")) (.value (.integer 1))) (.value (.integer 2))

/-- Where the balance is one, twice the sum of it and one is four; but the text adds only one twice,
and has the value three. -/
theorem text_value_doubled :
    ∃ ts t u, (doubled.tokens (fun _ => .default) accountScope).result = .ok ts ∧
      (Query.ofTokens ts).sql = "`balance` + ? * ?" ∧
      doubled.term (fun _ => .default) accountScope = some t ∧
      readText (· == '\x60') (.ofTokens ts) = some u ∧
      t.evaluate (fun _ _ => 1) = some 4 ∧ u.evaluate (fun _ _ => 1) = some 3 :=
  ⟨_, _, _, rfl, rfl, rfl, rfl, rfl, rfl⟩

end Expr

end RowMapper
