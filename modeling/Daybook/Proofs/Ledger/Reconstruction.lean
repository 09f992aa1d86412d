import Daybook.Proofs.Data.Grouping
import Daybook.Proofs.Ledger.Numbering
import Daybook.Proofs.Ledger.Transactions
import Daybook.Proofs.Syntax.Acceptance

/-!
Statements read back from a ledger.

A ledger keeps openings, asserted balances and entries in lists of their own, and only their numbers say how
they came after one another. That is enough (`lossless_build`): the number of a statement is that of its
opening, of its asserted balance, or of the group of its entries. Ordered by their numbers, these are the
statements that the ledger was built from, and from one on no number is left out or taken twice.
-/

namespace Daybook

/-- What an entry says as a leg of a transaction. -/
def Entry.movement (e : Entry) : Movement := ⟨e.direction, e.amount, e.account⟩

/-- A statement with the numbers that it takes: one of its own, and one for each leg. -/
structure Numbered where
  number : Int
  legs : List Int
  statement : Spanned Statement
  deriving DecidableEq

namespace Numbered

/-- All numbers of the statement. -/
def numbers (n : Numbered) : List Int := n.number :: n.legs

/-- An opening as a statement. -/
def opening (o : AccountOpening) : Numbered :=
  ⟨o.id, [], ⟨.opening o.date o.account o.currency, o.span⟩⟩

/-- An asserted balance as a statement. -/
def assertion (a : BalanceAssertion) : Numbered :=
  ⟨a.id, [], ⟨.assertion a.date a.account a.amount, a.span⟩⟩

/-- Entries that are grouped together as the transaction they are the legs of. All that legs share is read
off the first one. -/
def transaction? (group : Int × List Entry) : Option Numbered :=
  match group.2 with
  | [] => none
  | e :: _ =>
    (Statement.transaction? e.date e.description (group.2.map Entry.movement)).map fun s =>
      ⟨group.1, group.2.map (·.id), ⟨s, e.span⟩⟩

end Numbered

/-- So many numbers from a first one on. -/
def counting (first count : Nat) : List Int :=
  (List.range' first count).map fun n : Nat => (n : Int)

namespace Ledger

/-- The statements that are in a ledger, in no particular order. -/
def unordered (l : Ledger) : List Numbered :=
  l.openings.map Numbered.opening ++ l.assertions.map Numbered.assertion
    ++ l.groups.filterMap Numbered.transaction?

/-- The statements that are in a ledger, by their numbers. -/
def numbered (l : Ledger) : List Numbered :=
  l.unordered.mergeSort fun a b => decide (a.number ≤ b.number)

/-- The statements that are in a ledger, as they stood in the source. -/
def statements (l : Ledger) : List (Spanned Statement) :=
  l.numbered.map (·.statement)

/-- The numbers that are in use: those of openings, asserted balances and entries, and those that entries
name as their parents, each once. -/
def used (l : Ledger) : List Int :=
  l.openings.map (·.id) ++ l.assertions.map (·.id) ++ l.entries.map (·.id)
    ++ (l.entries.filterMap (·.parent)).eraseDups

/-- What a ledger keeps of the statements that it was built from. -/
structure Lossless (ps : List (Spanned Statement)) (l : Ledger) : Prop where
  /-- The numbers in use are those from one on, none twice. -/
  used : l.used.Perm (counting 1 (numbers ps))
  /-- They go up from statement to statement, and within a statement from leg to leg. -/
  ascending : l.numbered.flatMap Numbered.numbers = counting 1 (numbers ps)
  /-- So they do in each of the lists. -/
  sorted : (l.openings.map (·.id)).Pairwise (· < ·) ∧ (l.assertions.map (·.id)).Pairwise (· < ·)
    ∧ (l.entries.map (·.id)).Pairwise (· < ·)
  /-- The entries of a group name its number as that of their parent, and have the numbers behind it. -/
  legs : ∀ group ∈ l.groups, (∀ e ∈ group.2, e.parent = some group.1)
    ∧ group.2.map (·.id) = (List.range' 1 group.2.length).map fun n : Nat => group.1 + n
  /-- By their numbers, the statements are as they were. -/
  statements : l.statements = ps

/-! ## Counting -/

theorem counting_succ (first count : Nat) :
    counting first (1 + count) = (first : Int) :: counting (first + 1) count := by
  rw [Nat.add_comm, counting, List.range'_succ]
  rfl

/-- Counting may be interrupted and taken up again. -/
theorem counting_add (first count more : Nat) :
    counting first (count + more) = counting first count ++ counting (first + count) more := by
  rw [counting, ← List.range'_append_1, List.map_append]
  rfl

/-- Counting goes upwards. -/
theorem pairwise_counting (first count : Nat) : (counting first count).Pairwise (· < ·) := by
  unfold counting
  rw [List.pairwise_map]
  apply List.Pairwise.imp _ List.pairwise_lt_range'
  intro m n hlt
  exact Int.ofNat_lt.2 hlt

/-- Counting from one further on is counting from one, moved by where it began. -/
theorem counting_succ_eq_map (first count : Nat) :
    counting (first + 1) count = (List.range' 1 count).map fun n : Nat => (first : Int) + n := by
  unfold counting
  rw [← List.map_add_range', List.map_map]
  apply List.map_congr_left
  intro n _
  exact Int.natCast_add first n

/-- Every statement takes a number. -/
theorem one_le_numbers (s : Statement) : 1 ≤ s.numbers := by
  cases s with
  | opening | assertion => exact Nat.le_refl 1
  | transaction => exact Nat.le_add_right 1 _

/-! ## The entries of a transaction -/

section Legs

variable {next parent : Nat} {date : Date} {description : String} {span : Span} {ms : List Movement}

/-- The entries of a transaction are numbered one after the other. -/
theorem map_id_entriesFrom :
    (entriesFrom next parent date description span ms).map (·.id) = counting next ms.length := by
  induction ms generalizing next with
  | nil => rfl
  | cons m ms ih =>
    rw [List.length_cons, Nat.add_comm ms.length, counting_succ, ← ih]
    rfl

/-- The entries of a transaction still tell its movements. -/
theorem map_movement_entriesFrom :
    (entriesFrom next parent date description span ms).map Entry.movement = ms := by
  induction ms generalizing next with
  | nil => rfl
  | cons m ms ih => rw [entriesFrom, List.map_cons, ih, Entry.movement]

/-- Legs name their transaction, and say of it what the statement says. -/
theorem eq_of_mem_entriesFrom {e : Entry}
    (h : e ∈ entriesFrom next parent date description span ms) :
    e.parent = some (parent : Int) ∧ e.description = description ∧ e.span = span := by
  induction ms generalizing next with
  | nil => cases h
  | cons m ms ih =>
    rw [entriesFrom] at h
    rcases List.mem_cons.1 h with rfl | hmem
    · exact ⟨rfl, rfl, rfl⟩
    · exact ih hmem

/-- A transaction is made out again from its entries, if it has any movements. -/
theorem transaction?_entriesFrom (h : ms ≠ []) :
    Numbered.transaction? (parent, entriesFrom next parent date description span ms)
      = some ⟨parent, counting next ms.length, ⟨.transaction date description ms h, span⟩⟩ := by
  obtain ⟨m, more, rfl⟩ := List.exists_cons_of_ne_nil h
  have hstatement : Statement.transaction? date description
      ((entriesFrom next parent date description span (m :: more)).map Entry.movement)
        = some (.transaction date description (m :: more) h) := by
    rw [map_movement_entriesFrom, Statement.transaction?, dif_neg h]
  unfold Numbered.transaction?
  rw [← map_id_entriesFrom]
  exact congrArg (Option.map _) hstatement

/-- A transaction that comes first is the first group. -/
theorem groups_transaction (h : ms ≠ []) (ps : List (Spanned Statement)) :
    (buildFrom next (⟨.transaction date description ms h, span⟩ :: ps)).groups
      = ((next : Int), entriesFrom (next + 1) next date description span ms)
        :: (buildFrom (next + 1 + ms.length) ps).groups := by
  apply Tally.groups_append
  · rw [← List.length_pos_iff, length_entriesFrom]
    exact List.length_pos_iff.2 h
  · intro e he
    exact (of_mem_entriesFrom he).1
  · intro e he
    have hlater := le_groupKey_of_mem_buildFrom he
    omega

end Legs

/-! ## The statements in order -/

/-- The statements with the numbers that they take from `next` on. -/
def enumerate (next : Nat) : List (Spanned Statement) → List Numbered
  | [] => []
  | p :: ps =>
    ⟨next, counting (next + 1) (p.value.numbers - 1), p⟩ :: enumerate (next + p.value.numbers) ps

/-- Numbering statements keeps them as they are. -/
theorem map_statement_enumerate (next : Nat) (ps : List (Spanned Statement)) :
    (enumerate next ps).map (·.statement) = ps := by
  induction ps generalizing next with
  | nil => rfl
  | cons p ps ih => rw [enumerate, List.map_cons, ih]

/-- One number comes after the other. -/
theorem flatMap_numbers_enumerate (next : Nat) (ps : List (Spanned Statement)) :
    (enumerate next ps).flatMap Numbered.numbers = counting next (numbers ps) := by
  induction ps generalizing next with
  | nil => rfl
  | cons p ps ih =>
    have hone := one_le_numbers p.value
    have hthis : p.value.numbers = 1 + (p.value.numbers - 1) := by omega
    rw [enumerate, List.flatMap_cons, ih, numbers, counting_add, Numbered.numbers, ← counting_succ,
      ← hthis]

/-- Statements are numbered from the given number on. -/
theorem le_number_of_mem_enumerate {next : Nat} {ps : List (Spanned Statement)} {n : Numbered}
    (h : n ∈ enumerate next ps) : (next : Int) ≤ n.number := by
  induction ps generalizing next with
  | nil => cases h
  | cons p ps ih =>
    rcases List.mem_cons.1 h with rfl | hmem
    · exact Int.le_refl _
    · have hmore := ih hmem
      omega

/-- Statements are numbered upwards. -/
theorem pairwise_enumerate (next : Nat) (ps : List (Spanned Statement)) :
    (enumerate next ps).Pairwise fun m n => m.number < n.number := by
  induction ps generalizing next with
  | nil => exact List.Pairwise.nil
  | cons p ps ih =>
    refine List.pairwise_cons.2 ⟨?_, ih _⟩
    intro n hn
    have hone := one_le_numbers p.value
    have hmore := le_number_of_mem_enumerate hn
    show (next : Int) < n.number
    omega

/-- What is in the ledger of some statements is these statements. -/
theorem perm_unordered (next : Nat) (ps : List (Spanned Statement)) :
    (buildFrom next ps).unordered.Perm (enumerate next ps) := by
  induction ps generalizing next with
  | nil => exact List.Perm.refl _
  | cons p ps ih =>
    obtain ⟨s, span⟩ := p
    cases s with
    | opening date account currency => exact (ih (next + 1)).cons _
    | assertion date account amount =>
      show ((buildFrom (next + 1) ps).openings.map Numbered.opening
        ++ Numbered.assertion ⟨next, account, date, amount, span⟩
          :: (buildFrom (next + 1) ps).assertions.map Numbered.assertion
        ++ (buildFrom (next + 1) ps).groups.filterMap Numbered.transaction?).Perm _
      exact (List.perm_middle.append_right _).trans ((ih (next + 1)).cons _)
    | transaction date description ms h =>
      -- The first of the groups stands behind all openings and assertions.
      have hmore := ih (next + 1 + ms.length)
      unfold unordered at hmore ⊢
      rw [groups_transaction, List.filterMap_cons, transaction?_entriesFrom h]
      have hrest : enumerate next (⟨.transaction date description ms h, span⟩ :: ps)
          = ⟨next, counting (next + 1) ms.length, ⟨.transaction date description ms h, span⟩⟩
            :: enumerate (next + 1 + ms.length) ps := by
        rw [enumerate, Statement.numbers, Nat.add_sub_cancel_left, Nat.add_assoc]
      rw [hrest]
      exact List.perm_middle.trans (hmore.cons _)

/-- The numbered statements can be made out again from the ledger built from them. -/
theorem numbered_buildFrom (next : Nat) (ps : List (Spanned Statement)) :
    (buildFrom next ps).numbered = enumerate next ps :=
  Sorts.mergeSort_eq_of_key (perm_unordered next ps) (pairwise_enumerate next ps)

/-! ## The numbers in use -/

/-- Entries built from statements carry the number of their group as their parent. -/
theorem parent_of_mem_buildFrom {next : Nat} {ps : List (Spanned Statement)} {e : Entry}
    (h : e ∈ (buildFrom next ps).entries) : e.parent = some e.groupKey := by
  induction ps generalizing next with
  | nil => cases h
  | cons p ps ih =>
    obtain ⟨s, span⟩ := p
    cases s with
    | opening | assertion => exact ih h
    | transaction date description ms ne_nil =>
      rcases List.mem_append.1 h with hleg | hrest
      · rw [(of_mem_entriesFrom hleg).1, (eq_of_mem_entriesFrom hleg).1]
      · exact ih hrest

/-- The parents that entries name are what they are grouped under. -/
theorem perm_parents (next : Nat) (ps : List (Spanned Statement)) :
    ((buildFrom next ps).entries.filterMap (·.parent)).eraseDups.Perm
      (Tally.keys (buildFrom next ps).groups) := by
  have hparents : (buildFrom next ps).entries.filterMap (·.parent)
      = (buildFrom next ps).entries.map Entry.groupKey := by
    rw [← List.filterMap_eq_map]
    apply List.filterMap_congr
    intro e he
    exact parent_of_mem_buildFrom he
  have hkeys : (Tally.keys (buildFrom next ps).groups).Nodup :=
    Tally.nodup_keys_collect (t := []) List.nodup_nil _
  rw [hparents, List.perm_ext_iff_of_nodup (nodup_eraseDups _) hkeys]
  intro key
  rw [List.mem_eraseDups, List.mem_map, Ledger.groups, Tally.groups, Tally.mem_keys_collect]
  simp only [Tally.keys, List.map_nil, List.not_mem_nil, false_or]

/-- The numbers in use, with those of the groups in place of those that entries name. -/
theorem perm_counting (next : Nat) (ps : List (Spanned Statement)) :
    ((buildFrom next ps).openings.map (·.id) ++ (buildFrom next ps).assertions.map (·.id)
      ++ (buildFrom next ps).entries.map (·.id) ++ Tally.keys (buildFrom next ps).groups).Perm
        (counting next (numbers ps)) := by
  -- What a statement adds stands in the middle of the lists, hence occurrences are counted.
  induction ps generalizing next with
  | nil => exact List.Perm.refl _
  | cons p ps ih =>
    obtain ⟨s, span⟩ := p
    rw [List.perm_iff_count]
    intro n
    cases s with
    | opening date account currency =>
      have hmore := List.perm_iff_count.1 (ih (next + 1)) n
      simp only [buildFrom, groups, numbers, Statement.numbers, counting_succ, List.map_cons,
        List.cons_append, List.count_append, List.count_cons] at hmore ⊢
      omega
    | assertion date account amount =>
      have hmore := List.perm_iff_count.1 (ih (next + 1)) n
      simp only [buildFrom, groups, numbers, Statement.numbers, counting_succ, List.map_cons,
        List.count_append, List.count_cons] at hmore ⊢
      omega
    | transaction date description ms h =>
      have hmore := List.perm_iff_count.1 (ih (next + 1 + ms.length)) n
      rw [groups_transaction, numbers, Statement.numbers, Nat.add_assoc 1, counting_succ,
        counting_add]
      simp only [buildFrom, Tally.keys, List.map_cons, List.map_append, map_id_entriesFrom,
        List.count_append, List.count_cons] at hmore ⊢
      omega

/-- The numbers in a ledger built from statements are the first ones, each used once. -/
theorem perm_used (next : Nat) (ps : List (Spanned Statement)) :
    (buildFrom next ps).used.Perm (counting next (numbers ps)) :=
  ((perm_parents next ps).append_left _).trans (perm_counting next ps)

/-- Each of the lists has its numbers in the order of the source. -/
theorem sublist_counting (next : Nat) (ps : List (Spanned Statement)) :
    ((buildFrom next ps).openings.map (·.id)).Sublist (counting next (numbers ps))
      ∧ ((buildFrom next ps).assertions.map (·.id)).Sublist (counting next (numbers ps))
      ∧ ((buildFrom next ps).entries.map (·.id)).Sublist (counting next (numbers ps)) := by
  -- A statement adds to one of the lists, so the other two skip its numbers.
  induction ps generalizing next with
  | nil => exact ⟨List.nil_sublist _, List.nil_sublist _, List.nil_sublist _⟩
  | cons p ps ih =>
    obtain ⟨s, span⟩ := p
    cases s with
    | opening date account currency =>
      obtain ⟨hopenings, hassertions, hentries⟩ := ih (next + 1)
      simp only [numbers, Statement.numbers, counting_succ]
      exact ⟨hopenings.cons_cons _, hassertions.cons _, hentries.cons _⟩
    | assertion date account amount =>
      obtain ⟨hopenings, hassertions, hentries⟩ := ih (next + 1)
      simp only [numbers, Statement.numbers, counting_succ]
      exact ⟨hopenings.cons _, hassertions.cons_cons _, hentries.cons _⟩
    | transaction date description ms h =>
      obtain ⟨hopenings, hassertions, hentries⟩ := ih (next + 1 + ms.length)
      rw [numbers, Statement.numbers, Nat.add_assoc, counting_succ, counting_add]
      have hlegs : ((buildFrom next (⟨.transaction date description ms h, span⟩ :: ps)).entries.map
          (·.id)).Sublist
            (counting (next + 1) ms.length ++ counting (next + 1 + ms.length) (numbers ps)) := by
        rw [buildFrom, List.map_append, map_id_entriesFrom]
        exact hentries.append_left _
      exact ⟨(hopenings.trans (List.sublist_append_right _ _)).cons _,
        (hassertions.trans (List.sublist_append_right _ _)).cons _, hlegs.cons _⟩

/-- The numbers of the entries of a group come right behind its own one. -/
theorem legs_of_mem_groups {next : Nat} {ps : List (Spanned Statement)} {group : Int × List Entry}
    (h : group ∈ (buildFrom next ps).groups) : (∀ e ∈ group.2, e.parent = some group.1)
      ∧ group.2.map (·.id) = (List.range' 1 group.2.length).map fun n : Nat => group.1 + n := by
  induction ps generalizing next with
  | nil => cases h
  | cons p ps ih =>
    obtain ⟨s, span⟩ := p
    cases s with
    | opening | assertion => exact ih h
    | transaction date description ms ne_nil =>
      rw [groups_transaction] at h
      rcases List.mem_cons.1 h with rfl | hmem
      · refine ⟨fun e he => (eq_of_mem_entriesFrom he).1, ?_⟩
        rw [length_entriesFrom, map_id_entriesFrom, counting_succ_eq_map]
      · exact ih hmem

theorem lossless_build (ps : List (Spanned Statement)) : (build ps).Lossless ps where
  used := perm_used 1 ps
  ascending := by rw [build, numbered_buildFrom, flatMap_numbers_enumerate]
  sorted := by
    obtain ⟨hopenings, hassertions, hentries⟩ := sublist_counting 1 ps
    have hpairwise := pairwise_counting 1 (numbers ps)
    exact ⟨hpairwise.sublist hopenings, hpairwise.sublist hassertions, hpairwise.sublist hentries⟩
  legs := fun _ hgroup => legs_of_mem_groups hgroup
  statements := by rw [statements, build, numbered_buildFrom, map_statement_enumerate]

/-! ## What is no statement -/

/-- The statement that an item is, or else why it is refused. -/
def statementOf : Except Value (Spanned Statement) → Except NotStatement (Spanned Statement)
  | .ok p => .ok p
  | .error v => .error ⟨v.kindName⟩

theorem buildOrRefuse_eq (items : List (Except Value (Spanned Statement))) :
    buildOrRefuse items = (items.mapM statementOf).map build := rfl

/-- The items up to the first one that is no statement decide. -/
theorem mapM_statementOf_append (before : List (Spanned Statement))
    (items : List (Except Value (Spanned Statement))) :
    (before.map Except.ok ++ items).mapM statementOf
      = (items.mapM statementOf).map (before ++ ·) := by
  induction before with
  | nil =>
    rw [List.map_nil, List.nil_append]
    cases items.mapM statementOf with
    | ok | error => rfl
  | cons p before ih =>
    rw [List.map_cons, List.cons_append, List.mapM_cons, ih]
    cases items.mapM statementOf with
    | ok | error => rfl

/-- Where there is an item that is no statement, there is a first one. -/
theorem exists_first_error {items : List (Except Value (Spanned Statement))} {v : Value}
    (h : .error v ∈ items) : ∃ (before : List (Spanned Statement)) (w : Value)
      (after : List (Except Value (Spanned Statement))),
        items = before.map Except.ok ++ .error w :: after := by
  induction items with
  | nil => cases h
  | cons item items ih =>
    match item with
    | .error w => exact ⟨[], w, items, rfl⟩
    | .ok p =>
      rcases List.mem_cons.1 h with heq | hmem
      · cases heq
      · obtain ⟨before, w, after, rfl⟩ := ih hmem
        exact ⟨p :: before, w, after, rfl⟩

/-- **A list of statements is kept in full, and what is no statement is refused.** -/
theorem buildOrRefuse_lossless :
    (∀ ps, buildOrRefuse (ps.map Except.ok) = .ok (build ps) ∧ (build ps).Lossless ps)
      ∧ ∀ (items : List (Except Value (Spanned Statement))) (v : Value), .error v ∈ items →
        ∃ (before : List (Spanned Statement)) (w : Value)
          (after : List (Except Value (Spanned Statement))),
            items = before.map Except.ok ++ .error w :: after
              ∧ buildOrRefuse items = .error ⟨w.kindName⟩ := by
  refine ⟨fun ps => ⟨?_, lossless_build ps⟩, ?_⟩
  · have hread := mapM_statementOf_append ps []
    rw [List.append_nil] at hread
    rw [buildOrRefuse_eq, hread, List.mapM_nil]
    show Except.ok (build (ps ++ [])) = Except.ok (build ps)
    rw [List.append_nil]
  · intro items v h
    obtain ⟨before, w, after, rfl⟩ := exists_first_error h
    refine ⟨before, w, after, rfl, ?_⟩
    rw [buildOrRefuse_eq, mapM_statementOf_append]
    rfl

/-- An opening, and then two things that are no statements. -/
def mixedItems : List (Except Value (Spanned Statement)) :=
  [.ok ⟨.opening Parsed.sampleDay Parsed.cash Parsed.brl, .point 0⟩, .error (.integer 5), .error .null]

/-- A number and a null value among statements: the ledger is refused over the number, which comes first. -/
theorem buildOrRefuse_lossless_number :
    .error .null ∈ mixedItems
    ∧ buildOrRefuse mixedItems = .error ⟨"int"⟩
    ∧ ∃ (before : List (Spanned Statement)) (w : Value)
        (after : List (Except Value (Spanned Statement))),
          mixedItems = before.map Except.ok ++ .error w :: after
            ∧ buildOrRefuse mixedItems = .error ⟨w.kindName⟩ := by
  have hmem : .error .null ∈ mixedItems :=
    List.mem_cons_of_mem _ (List.mem_cons_of_mem _ (List.mem_singleton_self _))
  exact ⟨hmem, rfl, buildOrRefuse_lossless.2 mixedItems .null hmem⟩

end Ledger

end Daybook
