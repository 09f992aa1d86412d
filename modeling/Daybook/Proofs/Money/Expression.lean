import Mathlib.Algebra.Order.Field.Rat
import Mathlib.Logic.Relation
import Daybook.Money.Expression

/-!
What expressions over amounts come to.

An expression has a number, which is that of the same expression over the amounts of its leaves, and a tag, which
is that of its first leaf. If all leaves have this tag, it comes to the number with the tag. Else there is a first
node, in the order in which nodes are computed, between whose operands the currencies clash, and it is this clash
that is reported (`Expression.eval_eq`).

Hence neither the order in which nodes are computed (`Expression.Step`) nor the order and the grouping of sums
(`Expression.Rearranged`) makes a difference to what an expression comes to (`Expression.eval_exactly`).
-/

namespace Daybook.Money

open Relation (ReflTransGen)

/-! ## Operators -/

/-- What the operator does to the numbers. -/
def Joint.number : Joint → Rat → Rat → Rat
  | .add, p, q => p + q
  | .sub, p, q => p - q

/-- The word for the operator in messages. -/
def Joint.word : Joint → String
  | .add => "add"
  | .sub => "subtract"

/-- The number that a factor is. -/
def Factor.number : Factor → Rat
  | .integer n => n
  | .rational q => q

/-- What the operator does to the number. -/
def Single.number : Single → Rat → Rat
  | .neg, q => -q
  | .abs, q => |q|
  | .times factor, q => q * factor.number
  | .timesOf factor, q => factor.number * q

/-- Operators join amounts of one currency. -/
theorem Joint.apply_of_eq (op : Joint) {a b : Money} (h : a.currency = b.currency) :
    op.apply (.money a) (.money b) = .ok ⟨op.number a.amount b.amount, a.currency⟩ := by
  cases op with
  | add => rw [apply, Operand.add, Money.add, if_pos h]; rfl
  | sub => rw [apply, Operand.sub, Money.sub, if_pos h]; rfl

/-- Operators refuse amounts of two currencies, and name both. -/
theorem Joint.apply_of_ne (op : Joint) {a b : Money} (h : a.currency ≠ b.currency) :
    op.apply (.money a) (.money b)
      = .error (.currency (.mismatch a.currency.code b.currency.code op.word)) := by
  cases op with
  | add => rw [apply, Operand.add, Money.add, if_neg h]; rfl
  | sub => rw [apply, Operand.sub, Money.sub, if_neg h]; rfl

/-- The amount without its sign is the absolute value. -/
theorem abs_eq (a : Money) : a.abs = ⟨|a.amount|, a.currency⟩ := by
  unfold Money.abs
  split
  · next h => rw [abs_of_neg h]
  · next h => rw [abs_of_nonneg (not_lt.1 h)]

/-- An operator on one amount keeps its tag, and never fails. -/
theorem Single.apply_eq (op : Single) (a : Money) :
    op.apply (.money a) = .ok ⟨op.number a.amount, a.currency⟩ := by
  cases op with
  | neg => rfl
  | abs => exact congrArg Except.ok a.abs_eq
  | times factor => cases factor <;> rfl
  | timesOf factor =>
    rw [number, mul_comm]
    cases factor <;> rfl

/-- Money is what the constructor makes of its parts. -/
theorem ofValues_parts (m : Money) :
    ofValues (.rational m.amount) (.text m.currency.code) = .ok m := by
  have hcode : Currency.of? m.currency.code = .ok m.currency := dif_pos m.currency.isCode
  have hcurrency : currencyOfValue (.text m.currency.code) = .ok m.currency := by
    rw [currencyOfValue, hcode]
    rfl
  rw [ofValues, hcurrency]
  rfl

namespace Expression

/-! ## Leaves and nodes -/

/-- The amounts in an expression, from left to right. -/
def leaves : Expression → List Money
  | .amount m => [m]
  | .joint _ left right => left.leaves ++ right.leaves
  | .single _ e => e.leaves

/-- The number of an expression: the same expression over the numbers of its leaves. -/
def value : Expression → Rat
  | .amount m => m.amount
  | .joint op left right => op.number left.value right.value
  | .single op e => op.number e.value

/-- The tag of the first leaf. -/
def tag : Expression → Currency
  | .amount m => m.currency
  | .joint _ left _ => left.tag
  | .single _ e => e.tag

/-- Whether all leaves are in one currency. -/
def IsIn (c : Currency) (e : Expression) : Prop :=
  ∀ m ∈ e.leaves, m.currency = c

instance (c : Currency) (e : Expression) : Decidable (e.IsIn c) :=
  inferInstanceAs (Decidable (∀ m ∈ e.leaves, m.currency = c))

/-- An operator between two expressions. -/
structure Node where
  op : Joint
  left : Expression
  right : Expression

/-- The operators between two expressions, in the order in which they are computed. -/
def nodes : Expression → List Node
  | .amount _ => []
  | .joint op left right => left.nodes ++ (right.nodes ++ [⟨op, left, right⟩])
  | .single _ e => e.nodes

namespace Node

/-- Whether each of the operands is in one currency, but not both in the same. -/
def Clashes (n : Node) : Prop :=
  n.left.IsIn n.left.tag ∧ n.right.IsIn n.right.tag ∧ n.left.tag ≠ n.right.tag

instance (n : Node) : Decidable n.Clashes :=
  inferInstanceAs (Decidable (_ ∧ _ ∧ _))

/-- The clash of the currencies of the operands. -/
def mismatch (n : Node) : MoneyError :=
  .currency (.mismatch n.left.tag.code n.right.tag.code n.op.word)

end Node

/-- The first node at which currencies clash. -/
def clash? (e : Expression) : Option Node :=
  e.nodes.find? fun n => n.Clashes

variable (op : Joint) (left right e : Expression)

/-- The first clash of a joint expression is on the left, or else on the right, or else at the joint. -/
theorem clash?_joint : (joint op left right).clash?
    = left.clash?.or (right.clash?.or
        (if Node.Clashes ⟨op, left, right⟩ then some ⟨op, left, right⟩ else none)) := by
  rw [clash?, nodes, List.find?_append, List.find?_append, List.find?_singleton]
  simp only [decide_eq_true_eq]
  rfl

/-- The first leaf has the tag. -/
theorem exists_leaf_of_tag : ∃ m ∈ e.leaves, m.currency = e.tag := by
  induction e with
  | amount m => exact ⟨m, List.mem_singleton_self m, rfl⟩
  | joint op left right ihl ihr =>
    obtain ⟨m, hm, htag⟩ := ihl
    exact ⟨m, List.mem_append_left _ hm, htag⟩
  | single op e ih => exact ih

variable {left right e}

/-- What is all in one currency has its tag. -/
theorem IsIn.tag_eq {c : Currency} (h : e.IsIn c) : e.tag = c := by
  obtain ⟨m, hm, htag⟩ := exists_leaf_of_tag e
  rw [← htag]
  exact h m hm

/-- A joint expression is all in one currency if both sides are. -/
theorem isIn_joint {c : Currency} :
    (joint op left right).IsIn c ↔ left.IsIn c ∧ right.IsIn c :=
  List.forall_mem_append

/-- Where all leaves are in one currency, no node clashes. -/
theorem IsIn.clash?_eq_none {c : Currency} (h : e.IsIn c) : e.clash? = none := by
  induction e with
  | amount m => rfl
  | joint op left right ihl ihr =>
    obtain ⟨hleft, hright⟩ := (isIn_joint op).1 h
    have hcalm : ¬Node.Clashes ⟨op, left, right⟩ := by
      rintro ⟨-, -, hne⟩
      exact hne (hleft.tag_eq.trans hright.tag_eq.symm)
    rw [clash?_joint, ihl hleft, ihr hright, if_neg hcalm]
    rfl
  | single op e ih => exact ih h

/-- **Where no node clashes, all leaves are in one currency.** Operands that do not clash in themselves have one
currency each, so the node above them clashes unless it is the same. -/
theorem isIn_tag_of_clash? (h : e.clash? = none) : e.IsIn e.tag := by
  induction e with
  | amount m => exact List.forall_mem_singleton.2 rfl
  | joint op left right ihl ihr =>
    rw [clash?_joint, Option.or_eq_none_iff, Option.or_eq_none_iff] at h
    obtain ⟨hleft, hright, hnode⟩ := h
    have htag : left.tag = right.tag := by
      by_contra hne
      rw [if_pos ⟨ihl hleft, ihr hright, hne⟩] at hnode
      cases hnode
    refine (isIn_joint op).2 ⟨ihl hleft, ?_⟩
    rw [tag, htag]
    exact ihr hright
  | single op e ih => exact ih h

/-! ## What an expression comes to -/

/-- **An expression comes to its number with its tag, or to its first clash.** -/
theorem eval_eq (e : Expression) : e.eval = match e.clash? with
    | some n => .error n.mismatch
    | none => .ok ⟨e.value, e.tag⟩ := by
  induction e with
  | amount m => rfl
  | joint op left right ihl ihr =>
    rw [eval, ihl, ihr, clash?_joint]
    cases hleft : left.clash? with
    | some n => rfl
    | none =>
      cases hright : right.clash? with
      | some n => rfl
      | none =>
        -- Both operands have come to money; what is left is the operator between them.
        show op.apply (.money ⟨left.value, left.tag⟩) (.money ⟨right.value, right.tag⟩) = _
        by_cases htag : left.tag = right.tag
        · rw [op.apply_of_eq htag, if_neg fun hclash => hclash.2.2 htag]
          rfl
        · rw [op.apply_of_ne htag,
            if_pos ⟨isIn_tag_of_clash? hleft, isIn_tag_of_clash? hright, htag⟩]
          rfl
  | single op e ih =>
    rw [eval, ih, show (single op e).clash? = e.clash? from rfl]
    cases e.clash? with
    | some n => rfl
    | none => exact op.apply_eq _

/-- An expression has no value just over its first clash. -/
theorem eval_eq_error_iff {x : MoneyError} :
    e.eval = .error x ↔ ∃ n, e.clash? = some n ∧ x = n.mismatch := by
  rw [eval_eq]
  cases e.clash? with
  | some n => simp [eq_comm]
  | none => simp

/-- An expression that is all in one currency has its exact value, and no other expression has one. -/
theorem eval_eq_ok_iff {m : Money} : e.eval = .ok m ↔ e.IsIn m.currency ∧ m.amount = e.value := by
  rw [eval_eq]
  cases hclash : e.clash? with
  | some n =>
    simp only [reduceCtorEq, false_iff]
    rintro ⟨hin, -⟩
    rw [hin.clash?_eq_none] at hclash
    cases hclash
  | none =>
    have htag := isIn_tag_of_clash? hclash
    constructor
    · intro h
      cases h
      exact ⟨htag, rfl⟩
    · rintro ⟨hin, hvalue⟩
      rw [← hvalue, hin.tag_eq]

/-- **It fails just if two of its leaves have different currencies.** -/
theorem exists_error_iff :
    (∃ x, e.eval = .error x) ↔ ∃ a ∈ e.leaves, ∃ b ∈ e.leaves, a.currency ≠ b.currency := by
  constructor
  · rintro ⟨x, h⟩
    by_contra hsame
    push Not at hsame
    obtain ⟨m, hm, -⟩ := exists_leaf_of_tag e
    have hin : e.IsIn m.currency := fun a ha => hsame a ha m hm
    rw [eval_eq, hin.clash?_eq_none] at h
    cases h
  · rintro ⟨a, ha, b, hb, hne⟩
    cases h : e.eval with
    | error x => exact ⟨x, rfl⟩
    | ok m =>
      obtain ⟨hin, -⟩ := eval_eq_ok_iff.1 h
      exact absurd ((hin a ha).trans (hin b hb).symm) hne

/-! ## Any order of the nodes -/

/-- One node whose operands have been computed is computed, wherever it is. -/
inductive Step : Expression → Expression → Prop
  | joint {op : Joint} {a b m : Money} (h : op.apply (.money a) (.money b) = .ok m) :
    Step (.joint op (.amount a) (.amount b)) (.amount m)
  | single {op : Single} {a m : Money} (h : op.apply (.money a) = .ok m) :
    Step (.single op (.amount a)) (.amount m)
  | left {op : Joint} {e f : Expression} (right : Expression) (h : Step e f) :
    Step (.joint op e right) (.joint op f right)
  | right {op : Joint} {e f : Expression} (left : Expression) (h : Step e f) :
    Step (.joint op left e) (.joint op left f)
  | inside {op : Single} {e f : Expression} (h : Step e f) : Step (.single op e) (.single op f)

/-- Whether some nodes can be computed one after the other so that an expression is left. -/
abbrev Reaches : Expression → Expression → Prop := ReflTransGen Step

variable {f : Expression}

/-- A step changes nothing in what the expression comes to. -/
theorem Step.eval_eq (h : Step e f) : e.eval = f.eval := by
  induction h with
  | joint h => exact h
  | single h => exact h
  | left right _ ih => rw [eval, eval, ih]
  | right left _ ih => rw [eval, eval, ih]
  | inside _ ih => rw [eval, eval, ih]

/-- Evaluation steps do not change what comes out in the end. -/
theorem Reaches.eval_eq (h : Reaches e f) : e.eval = f.eval := by
  induction h with
  | refl => rfl
  | tail _ hstep ih => rw [ih, hstep.eval_eq]

/-- What an expression comes to is reached. The induction is on the expression: operands first, then the node. -/
theorem reaches_of_eval {m : Money} (h : e.eval = .ok m) : Reaches e (.amount m) := by
  induction e generalizing m with
  | amount a =>
    cases h
    exact .refl
  | joint op left right ihl ihr =>
    rw [eval] at h
    cases hleft : left.eval with
    | error x => rw [hleft] at h; cases h
    | ok a =>
      cases hright : right.eval with
      | error x => rw [hleft, hright] at h; cases h
      | ok b =>
        rw [hleft, hright] at h
        have hfirst := (ihl hleft).lift (joint op · right) fun _ _ => Step.left right
        have hsecond := (ihr hright).lift (joint op (.amount a)) fun _ _ => Step.right (.amount a)
        exact (hfirst.trans hsecond).tail (.joint h)
  | single op e ih =>
    rw [eval] at h
    cases he : e.eval with
    | error x => rw [he] at h; cases h
    | ok a =>
      rw [he] at h
      exact ((ih he).lift (single op) fun _ _ => Step.inside).tail (.single h)

/-! ## Any order and grouping of sums -/

/-- Whether two expressions differ in the order and the grouping of sums only. -/
inductive Rearranged : Expression → Expression → Prop
  | refl (e : Expression) : Rearranged e e
  | symm {e f : Expression} (h : Rearranged e f) : Rearranged f e
  | trans {e f g : Expression} (h : Rearranged e f) (h' : Rearranged f g) : Rearranged e g
  | exchange (e f : Expression) : Rearranged (.joint .add e f) (.joint .add f e)
  | regroup (e f g : Expression) :
    Rearranged (.joint .add (.joint .add e f) g) (.joint .add e (.joint .add f g))
  | joint (op : Joint) {e f e' f' : Expression} (h : Rearranged e e') (h' : Rearranged f f') :
    Rearranged (.joint op e f) (.joint op e' f')
  | single (op : Single) {e f : Expression} (h : Rearranged e f) :
    Rearranged (.single op e) (.single op f)

/-- Rearranging keeps the amounts, in some order. -/
theorem Rearranged.perm_leaves (h : Rearranged e f) : e.leaves.Perm f.leaves := by
  induction h with
  | refl => exact .refl _
  | symm _ ih => exact ih.symm
  | trans _ _ ih ih' => exact ih.trans ih'
  | exchange e f => exact List.perm_append_comm
  | regroup e f g => exact .of_eq (List.append_assoc _ _ _)
  | joint op _ _ ih ih' => exact ih.append ih'
  | single op _ ih => exact ih

/-- Rearranging keeps the number. -/
theorem Rearranged.value_eq (h : Rearranged e f) : e.value = f.value := by
  induction h with
  | refl => rfl
  | symm _ ih => exact ih.symm
  | trans _ _ ih ih' => exact ih.trans ih'
  | exchange e f => exact add_comm _ _
  | regroup e f g => exact add_assoc _ _ _
  | joint op _ _ ih ih' => rw [value, value, ih, ih']
  | single op _ ih => rw [value, value, ih]

/-- Rearranged expressions come to the same amount, or neither to any. -/
theorem Rearranged.eval_eq_ok_iff (h : Rearranged e f) {m : Money} :
    e.eval = .ok m ↔ f.eval = .ok m := by
  have hleaves : e.IsIn m.currency ↔ f.IsIn m.currency :=
    forall_congr' fun a => imp_congr_left h.perm_leaves.mem_iff
  rw [Expression.eval_eq_ok_iff, Expression.eval_eq_ok_iff, hleaves, h.value_eq]

/-! ## Exactness -/

/-- **Money arithmetic is rational arithmetic with one tag.** An expression fails just if two of its leaves have
different currencies, and then with the tags and the operator of the first node at which they clash. Otherwise it
comes to the exact number of the same expression over the amounts, with the common tag, which the constructor
takes as it is. It comes to the same in whatever order nodes are computed, and however sums are arranged. -/
theorem eval_exactly (e : Expression) :
    ((∃ x, e.eval = .error x) ↔ ∃ a ∈ e.leaves, ∃ b ∈ e.leaves, a.currency ≠ b.currency)
    ∧ (∀ x, e.eval = .error x
      ↔ ∃ n, e.nodes.find? (fun n => n.Clashes) = some n ∧ x = n.mismatch)
    ∧ (∀ m, e.eval = .ok m ↔ (∀ leaf ∈ e.leaves, leaf.currency = m.currency) ∧ m.amount = e.value)
    ∧ (∀ m, e.eval = .ok m → ofValues (.rational m.amount) (.text m.currency.code) = .ok m)
    ∧ (∀ f m, Reaches e f → (Reaches f (.amount m) ↔ e.eval = .ok m))
    ∧ ∀ f m, Rearranged e f → (f.eval = .ok m ↔ e.eval = .ok m) := by
  refine ⟨exists_error_iff, fun x => eval_eq_error_iff, fun m => eval_eq_ok_iff,
    fun m _ => m.ofValues_parts, ?_, fun f m h => h.eval_eq_ok_iff.symm⟩
  intro f m h
  rw [h.eval_eq]
  constructor
  · intro hreached
    exact hreached.eval_eq
  · exact reaches_of_eval

def eur : Currency := ⟨"EUR", by decide⟩

/-- The sum of ten and five, less twice what is left of minus three without its sign. -/
def sample : Expression :=
  .joint .sub (.joint .add (.amount ⟨10, eur⟩) (.amount ⟨5, eur⟩))
    (.single (.timesOf (.integer 2)) (.single .abs (.amount ⟨-3, eur⟩)))

/-- The absolute value is computed before the sum. -/
def absFirst : Expression :=
  .joint .sub (.joint .add (.amount ⟨10, eur⟩) (.amount ⟨5, eur⟩))
    (.single (.timesOf (.integer 2)) (.amount ⟨3, eur⟩))

/-- Five comes before ten. -/
def exchanged : Expression :=
  .joint .sub (.joint .add (.amount ⟨5, eur⟩) (.amount ⟨10, eur⟩))
    (.single (.timesOf (.integer 2)) (.single .abs (.amount ⟨-3, eur⟩)))

/-- An expression over one currency, evaluated in two orders and rearranged. -/
theorem eval_exactly_sample :
    sample.eval = .ok ⟨9, eur⟩
    ∧ ofValues (.rational 9) (.text eur.code) = .ok ⟨9, eur⟩
    ∧ Reaches sample absFirst ∧ Reaches absFirst (.amount ⟨9, eur⟩)
    ∧ Rearranged sample exchanged ∧ exchanged.eval = .ok ⟨9, eur⟩ := by
  have heval : sample.eval = .ok ⟨9, eur⟩ := eval_eq_ok_iff.2 ⟨by decide, by decide +kernel⟩
  have hstep : Reaches sample absFirst :=
    .single (.right _ (.inside (.single rfl)))
  have hsums : Rearranged sample exchanged := .joint .sub (.exchange _ _) (.refl _)
  obtain ⟨-, -, -, hparts, horder, hsame⟩ := eval_exactly sample
  exact ⟨heval, hparts _ heval, hstep, (horder absFirst _ hstep).2 heval, hsums,
    (hsame exchanged _ hsums).2 heval⟩

end Expression

end Daybook.Money
