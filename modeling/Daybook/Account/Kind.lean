import Daybook.Account.Direction

/-!
Kinds of accounts.

The kind of an account decides whether a debit makes its natural balance larger or smaller: assets
and expenses grow with debits, the other kinds with credits.
-/

namespace Daybook

/-- The five kinds of accounts. -/
inductive AccountKind where
  | assets
  | liabilities
  | income
  | equity
  | expenses
  deriving DecidableEq

namespace AccountKind

/-- All kinds in the order in which reports list them. -/
def all : List AccountKind := [.assets, .liabilities, .income, .equity, .expenses]

/-- The place of a kind in that order. -/
def rank : AccountKind → Nat
  | .assets => 0
  | .liabilities => 1
  | .income => 2
  | .equity => 3
  | .expenses => 4

/-- The word for a kind. -/
def keyword : AccountKind → String
  | .assets => "assets"
  | .liabilities => "liabilities"
  | .income => "income"
  | .equity => "equity"
  | .expenses => "expenses"

/-- The kind that a word stands for. -/
def ofKeyword? (word : String) : Option AccountKind :=
  all.find? fun kind => kind.keyword = word

/-- What a unit moved in the given direction adds to the natural balance. -/
def sign : AccountKind → Direction → Int
  | .assets, .debit => 1
  | .assets, .credit => -1
  | .liabilities, .debit => -1
  | .liabilities, .credit => 1
  | .income, .debit => -1
  | .income, .credit => 1
  | .equity, .debit => -1
  | .equity, .credit => 1
  | .expenses, .debit => 1
  | .expenses, .credit => -1

theorem mem_all (kind : AccountKind) : kind ∈ all := by
  cases kind <;> decide

/-- Kinds are told apart by their ranks. -/
theorem rank_injective {a b : AccountKind} (h : a.rank = b.rank) : a = b := by
  cases a <;> cases b <;> first | rfl | cases h

/-- A debit and a credit of the same size cancel. -/
theorem sign_credit (kind : AccountKind) : kind.sign .credit = -kind.sign .debit := by
  cases kind <;> rfl

theorem ofKeyword?_keyword (kind : AccountKind) : ofKeyword? kind.keyword = some kind := by
  cases kind <;> decide

/-- A word is the keyword of the kind that it stands for. -/
theorem keyword_of_ofKeyword? {word : String} {kind : AccountKind}
    (h : ofKeyword? word = some kind) : kind.keyword = word := by
  simpa using List.find?_some h

end AccountKind

end Daybook
