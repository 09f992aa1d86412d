import Daybook.Proofs.Money.Reading
import Daybook.Report.Table

/-!
The table of a balance sheet is aligned.

A column is as wide as the longest of its cells (`length_le_widest`), so no cell is cut and none runs into
the next one: every cell is as long as its column when spaces have been added, and the words of a line are
its cells (`Line.words_render`). Each line is as long as all columns together with the spaces between them, and its
amounts end where their columns do (`Line.isSetAs_render`).
-/

namespace Daybook

open Text

namespace Table

/-! ## Cells -/

/-- A maximum is no less than any of the numbers, nor than where it starts. -/
theorem le_foldl_max (ns : List Nat) (least : Nat) :
    least ≤ ns.foldl max least ∧ ∀ n ∈ ns, n ≤ ns.foldl max least := by
  induction ns generalizing least with
  | nil => exact ⟨Nat.le_refl _, by simp⟩
  | cons n ns ih =>
    obtain ⟨hleast, hns⟩ := ih (max least n)
    rw [List.foldl_cons]
    refine ⟨(Nat.le_max_left _ _).trans hleast, List.forall_mem_cons.2 ⟨?_, hns⟩⟩
    exact (Nat.le_max_right _ _).trans hleast

/-- **No cell is longer than the widest one.** -/
theorem length_le_widest {cell : String} {cells : List String} (h : cell ∈ cells) :
    cell.length ≤ widest cells :=
  (le_foldl_max (cells.map String.length) 0).2 _ (List.mem_map_of_mem h)

theorem length_spaces (count : Nat) : (spaces count).length = count := by
  rw [← String.length_toList, toList_spaces, List.length_replicate]

section Cell

variable {width : Nat} {cell : String}

/-- A cell that fits is filled up to the width of its column, on the right. -/
theorem length_flushLeft (h : cell.length ≤ width) : (flushLeft width cell).length = width := by
  rw [flushLeft, String.length_append, length_spaces]
  omega

/-- A cell that fits is filled up to the width of its column, on the left. -/
theorem length_flushRight (h : cell.length ≤ width) : (flushRight width cell).length = width := by
  rw [flushRight, String.length_append, length_spaces]
  omega

/-- Filling up a cell adds no words. -/
theorem words_flushLeft : words (flushLeft width cell) = words cell :=
  words_append_spaces _ _

theorem words_flushRight : words (flushRight width cell) = words cell :=
  words_spaces_append _ _

end Cell

/-! ## Lines -/

/-- Whether a word ends at an offset of a row, with a space in front of it, and with another one or nothing
behind it. -/
def EndsAt (row : String) (offset : Nat) (word : String) : Prop :=
  ∃ before after, row = before ++ " " ++ word ++ after ∧ (before ++ " " ++ word).length = offset
    ∧ (after = "" ∨ ∃ more, after = " " ++ more)

/-- The spaces in front of a cell belong together. -/
theorem spaces_append_flushRight (width : Nat) (cell : String) :
    "  " ++ flushRight width cell = spaces (width - cell.length + 1) ++ " " ++ cell := calc
  _ = spaces 2 ++ spaces (width - cell.length) ++ cell := String.append_assoc.symm
  _ = _ := by rw [spaces_append, Nat.add_comm 2, spaces_succ']

/-- **A cell that is set flush right ends where its column does.** -/
theorem endsAt_intercalate {width offset : Nat} {cell : String} (h : cell.length ≤ width)
    (before after : List String) (hbefore : before ≠ [])
    (hoffset : ("  ".intercalate before).length + 2 + width = offset) :
    EndsAt ("  ".intercalate (before ++ flushRight width cell :: after)) offset cell := by
  have hfront : "  ".intercalate before ++ "  " ++ flushRight width cell
      = "  ".intercalate before ++ spaces (width - cell.length + 1) ++ " " ++ cell := by
    rw [String.append_assoc, spaces_append_flushRight, ← String.append_assoc, ← String.append_assoc]
  obtain ⟨rest, hrest, hbehind⟩ : ∃ rest, "  ".intercalate (flushRight width cell :: after)
      = flushRight width cell ++ rest ∧ (rest = "" ∨ ∃ more, rest = " " ++ more) := by
    cases after with
    | nil => exact ⟨"", by rw [String.intercalate_singleton, String.append_empty], .inl rfl⟩
    | cons next after =>
      refine ⟨"  " ++ "  ".intercalate (next :: after), ?_,
        .inr ⟨" " ++ "  ".intercalate (next :: after), ?_⟩⟩
      · rw [String.intercalate_cons_cons, String.append_assoc]
      · rw [← String.append_assoc]
        rfl
  refine ⟨"  ".intercalate before ++ spaces (width - cell.length + 1), rest, ?_, ?_, hbehind⟩
  · rw [String.intercalate_append_of_ne_nil hbefore (List.cons_ne_nil _ _), hrest,
      ← String.append_assoc, hfront]
  · rw [← hfront, String.length_append, String.length_append, length_flushRight h]
    exact hoffset

/-- The offsets at which the columns of amounts end. -/
structure Stops where
  debits : Nat
  credits : Nat
  balance : Nat

namespace Line

/-- Whether the cells are words; that of the currencies may be empty. -/
structure IsPlain (l : Line) : Prop where
  account : IsWord l.account
  currency : l.currency = "" ∨ IsWord l.currency
  debits : IsWord l.debits
  credits : IsWord l.credits
  balance : IsWord l.balance

/-- The titles of the columns are words. -/
theorem isPlain_header : header.IsPlain where
  account := isWord_of_all (by decide)
  currency := .inr (isWord_of_all (by decide))
  debits := isWord_of_all (by decide)
  credits := isWord_of_all (by decide)
  balance := isWord_of_all (by decide)

/-- A line is plain if its first cells are: amounts are written as words. -/
theorem isPlain_of {account currency : String} (haccount : IsWord account)
    (hcurrency : currency = "" ∨ IsWord currency) (t : Totals) : (of account currency t).IsPlain where
  account := haccount
  currency := hcurrency
  debits := Amount.isWord_text t.debits
  credits := Amount.isWord_text t.credits
  balance := Amount.isWord_text t.balance

/-- How a line stands in a row: as long as the columns are together, with the amounts at the ends of their
columns. -/
structure IsSetAs (l : Line) (stops : Stops) (row : String) : Prop where
  length : row.length = stops.balance
  debits : EndsAt row stops.debits l.debits
  credits : EndsAt row stops.credits l.credits
  balance : EndsAt row stops.balance l.balance

/-- The ends of the columns of amounts in some lines. -/
def stops (lines : List Line) : Stops :=
  let debits := widest (lines.map (·.account)) + 2 + widest (lines.map (·.currency)) + 2
    + widest (lines.map (·.debits))
  let credits := debits + 2 + widest (lines.map (·.credits))
  { debits, credits, balance := credits + 2 + widest (lines.map (·.balance)) }

variable {lines : List Line} {l : Line}

/-- Nothing is stripped off a line, since it ends with a word. -/
theorem render_eq (h : l.IsPlain) (lines : List Line) : l.render lines = l.padded lines := by
  obtain ⟨front, hfront⟩ : ∃ front, l.padded lines = front ++ flushRight _ l.balance :=
    ⟨_, (String.intercalate_append_of_ne_nil (l := [_, _, _, _]) (m := [_]) (List.cons_ne_nil _ _)
      (List.cons_ne_nil _ _)).trans (congrArg _ String.intercalate_singleton)⟩
  -- The last cell is set flush right, so its spaces are in front of it.
  rw [flushRight, ← String.append_assoc] at hfront
  rw [render, hfront]
  exact h.balance.stripEnd_append _

/-- **The words of a line are its cells.** -/
theorem words_render (h : l.IsPlain) (lines : List Line) : words (l.render lines)
    = l.account :: (words l.currency ++ [l.debits, l.credits, l.balance]) := by
  have htwo : "  " = spaces 2 := rfl
  rw [render_eq h, padded, htwo, words_intercalate]
  simp only [List.flatMap_cons, List.flatMap_nil, words_flushLeft, words_flushRight, h.account.words_eq,
    h.debits.words_eq, h.credits.words_eq, h.balance.words_eq]
  rfl

/-- **A line is as long as all others, and its amounts end where theirs do.** -/
theorem isSetAs_render (h : l.IsPlain) (hmem : l ∈ lines) : l.IsSetAs (stops lines) (l.render lines) := by
  have hle (cell : Line → String) : (cell l).length ≤ widest (lines.map cell) :=
    length_le_widest (List.mem_map_of_mem hmem)
  have haccount := length_flushLeft (hle (·.account))
  have hcurrency := length_flushLeft (hle (·.currency))
  have hdebits := length_flushRight (hle (·.debits))
  have hcredits := length_flushRight (hle (·.credits))
  have hbalance := length_flushRight (hle (·.balance))
  have htwo : "  ".length = 2 := rfl
  -- The columns in front of a cell are as wide in every line, which is why offsets do not depend on it.
  rw [render_eq h, padded]
  refine ⟨?length, ?debits, ?credits, ?balance⟩
  case length =>
    simp only [String.intercalate_cons_cons, String.intercalate_singleton, String.length_append,
      haccount, hcurrency, hdebits, hcredits, hbalance, htwo, stops]
    omega
  case debits =>
    refine endsAt_intercalate (hle (·.debits)) [_, _] [_, _] (List.cons_ne_nil _ _) ?_
    simp only [String.intercalate_cons_cons, String.intercalate_singleton, String.length_append,
      haccount, hcurrency, htwo, stops]
  case credits =>
    refine endsAt_intercalate (hle (·.credits)) [_, _, _] [_] (List.cons_ne_nil _ _) ?_
    simp only [String.intercalate_cons_cons, String.intercalate_singleton, String.length_append,
      haccount, hcurrency, hdebits, htwo, stops]
    omega
  case balance =>
    refine endsAt_intercalate (hle (·.balance)) [_, _, _, _] [] (List.cons_ne_nil _ _) ?_
    simp only [String.intercalate_cons_cons, String.intercalate_singleton, String.length_append,
      haccount, hcurrency, hdebits, hcredits, htwo, stops]
    omega

/-- A line is a single row. -/
theorem newline_not_mem_render (h : l.IsPlain) (lines : List Line) :
    '\n' ∉ (l.render lines).toList := by
  have hcurrency : '\n' ∉ l.currency.toList := by
    rcases h.currency with hempty | hcurrency
    · rw [hempty]
      decide
    · exact hcurrency.newline_not_mem
  rw [render_eq h, padded]
  refine newline_not_mem_intercalate (by decide) ?_
  simp only [List.forall_mem_cons, flushLeft, flushRight]
  refine ⟨newline_not_mem_append h.account.newline_not_mem (newline_not_mem_spaces _),
    newline_not_mem_append hcurrency (newline_not_mem_spaces _),
    newline_not_mem_append (newline_not_mem_spaces _) h.debits.newline_not_mem,
    newline_not_mem_append (newline_not_mem_spaces _) h.credits.newline_not_mem,
    newline_not_mem_append (newline_not_mem_spaces _) h.balance.newline_not_mem, ?_⟩
  intro _ hnil
  cases hnil

end Line

end Table

end Daybook
