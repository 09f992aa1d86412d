import Daybook.Proofs.Syntax.Reading

/-!
Recovery after an error loses nothing.

Whatever stands before a place where a statement seems to start, the statements from there on are read
as if they stood alone (`of_append`). An attempt that begins before such a place may reach past it, and
a date may even seem to begin across it (`2019-12-2020-01-01`). No attempt of this sort succeeds,
because no date seems to begin inside of a statement (`prefix_of_statement_append`), and reading goes on
soon enough, because it looks at every token (`nextStart_append`).
-/

namespace Daybook.Parsed

open Grammar Production

/-- Whether a statement may start is decided by five tokens. -/
theorem startsStatement_append {ts : Tokens} (h : 5 ≤ ts.length) (us : Tokens) :
    startsStatement (ts ++ us) = startsStatement ts := by
  rw [startsStatement_eq, startsStatement_eq, List.map_append, beginsDate_append]
  simpa using h

theorem five_le_length_of_startsStatement {ts : Tokens} (h : startsStatement ts = true) :
    5 ≤ ts.length := by
  rw [startsStatement_eq] at h
  simpa using five_le_length h

/-- Where a statement may start nothing is skipped. -/
theorem nextStart_eq_self {ts : Tokens} (h : startsStatement ts = true) : nextStart ts = ts := by
  cases ts with
  | nil => rfl
  | cons t ts => rw [nextStart, if_pos h]

/-- Where no statement starts in some tokens, none starts in what is left of them. -/
theorem nextStart_of_suffix {ts rest : Tokens} (hsuffix : rest <:+ ts) (h : nextStart ts = []) :
    nextStart rest = [] := by
  induction ts with
  | nil =>
    rw [List.suffix_nil.1 hsuffix]
    rfl
  | cons t ts ih =>
    rcases List.suffix_cons_iff.1 hsuffix with rfl | hsuffix
    · exact h
    · rw [nextStart] at h
      split at h
      · cases h
      · exact ih hsuffix h

/-- Before a start, the next start is where it would be without it, or else it is reached across the
remaining tokens: what is left then is a suffix of them. -/
theorem nextStart_append (ts : Tokens) {us : Tokens} (hus : startsStatement us = true) :
    (nextStart ts ≠ [] ∧ nextStart (ts ++ us) = nextStart ts ++ us)
      ∨ (nextStart ts = [] ∧ ∃ rest, rest <:+ ts ∧ nextStart (ts ++ us) = rest ++ us) := by
  induction ts with
  | nil => exact .inr ⟨rfl, [], List.suffix_rfl, nextStart_eq_self hus⟩
  | cons t ts ih =>
    by_cases hlen : 5 ≤ (t :: ts).length
    · have hsame : startsStatement (t :: (ts ++ us)) = startsStatement (t :: ts) :=
        startsStatement_append hlen us
      rw [List.cons_append, nextStart, nextStart, hsame]
      by_cases hstart : startsStatement (t :: ts) = true
      · rw [if_pos hstart, if_pos hstart]
        exact .inl ⟨List.cons_ne_nil t ts, rfl⟩
      · rw [if_neg hstart, if_neg hstart]
        rcases ih with h | ⟨hnil, rest, hrest, hnext⟩
        · exact .inl h
        · exact .inr ⟨hnil, rest, hrest.trans (List.suffix_cons t ts), hnext⟩
    · -- Fewer than five tokens hold no start of their own.
      have hnil : nextStart (t :: ts) = [] := by
        rcases startsStatement_nextStart (t :: ts) with hnil | hstart
        · exact hnil
        · have h₁ := five_le_length_of_startsStatement hstart
          have h₂ := (nextStart_suffix (t :: ts)).length_le
          omega
      refine .inr ⟨hnil, ?_⟩
      by_cases hstart : startsStatement (t :: ts ++ us) = true
      · exact ⟨t :: ts, List.suffix_rfl, nextStart_eq_self hstart⟩
      · have hnil' : nextStart ts = [] := by
          rw [nextStart] at hnil
          split at hnil
          · cases hnil
          · exact hnil
        have hnext : nextStart (t :: ts ++ us) = nextStart (ts ++ us) := if_neg hstart
        rw [hnext]
        rcases ih with ⟨hne, -⟩ | ⟨-, rest, hrest, hnext⟩
        · exact absurd hnil' hne
        · exact ⟨rest, hrest.trans (List.suffix_cons t ts), hnext⟩

/-- **No statement reaches past a start.** -/
theorem prefix_of_statement_append {ts us block rest : Tokens} {s : Statement} (hts : ts ≠ [])
    (hus : startsStatement us = true) (h : ts ++ us = block ++ rest)
    (hblock : IsStatement (block.map (·.value)) s) :
    ∃ left, ts = block ++ left ∧ rest = left ++ us := by
  rcases List.append_eq_append_iff.1 h with ⟨middle, rfl, rfl⟩ | ⟨left, rfl, rfl⟩
  · rcases middle with _ | ⟨t, middle⟩
    · exact ⟨[], by simp, by simp⟩
    · -- Otherwise the start lies inside of the block, where no date seems to begin.
      exfalso
      have hlen : (ts.map (·.value)).length - 1
          < ((ts ++ t :: middle).map (·.value)).tail.length := by
        have := List.length_pos_iff.2 hts
        simp only [List.length_map, List.length_append, List.length_cons, List.length_tail]
        omega
      have hcalm := hblock.calm_tail.beginsDate_drop hlen (rest.map (·.value))
      have hpos := List.length_pos_iff.2 hts
      have hdrop : ((ts ++ t :: middle).map (·.value)).tail.drop ((ts.map (·.value)).length - 1)
          = (t :: middle).map (·.value) := by
        rw [List.drop_tail, List.length_map, Nat.sub_add_cancel hpos, ← List.map_drop,
          List.drop_left]
      rw [hdrop, ← List.map_append, ← startsStatement_eq] at hcalm
      rw [hcalm] at hus
      cases hus
  · exact ⟨left, rfl, rfl⟩

theorem endsBefore_of_append {s : Statement} {ts us : Tokens} (h : EndsBefore s (ts ++ us)) :
    EndsBefore s ts := by
  cases s with
  | opening => trivial
  | assertion => trivial
  | transaction =>
    cases ts with
    | nil => exact ⟨rfl, rfl⟩
    | cons t ts => exact h

/-- A statement that ends before some tokens does so before others that a statement may start in. -/
theorem endsBefore_append {s : Statement} {ts us : Tokens} (h : EndsBefore s ts)
    (hus : startsStatement us = true) : EndsBefore s (ts ++ us) := by
  cases s with
  | opening => trivial
  | assertion => trivial
  | transaction =>
    cases ts with
    | cons t ts => exact h
    | nil =>
      cases us with
      | nil => cases hus
      | cons u us =>
        rw [startsStatement_eq] at hus
        have hinteger : u.value.isInteger = true := isInteger_of_beginsDate hus
        rcases u with ⟨value, span⟩
        cases value with
        | number => exact ⟨rfl, rfl⟩
        | _ => cases hinteger

/-- A statement that is read before a start is read without it as well. -/
theorem statement_append {ts us : Tokens} {s : Spanned Statement} {rest : Tokens} (hts : ts ≠ [])
    (hus : startsStatement us = true) :
    statement (ts ++ us) = .ok (s, rest)
      ↔ ∃ left, rest = left ++ us ∧ statement ts = .ok (s, left) := by
  constructor
  · intro h
    obtain ⟨hends, block, hts', hblock, -⟩ := reads_of_statement h
    obtain ⟨left, rfl, rfl⟩ := prefix_of_statement_append hts hus hts' hblock
    -- The block is taken before either rest, and with the same span.
    obtain ⟨span, hspan⟩ := accepts_of_isStatement hblock
    have hvalue := h
    rw [List.append_assoc, hspan _ hends, Except.ok.injEq, Prod.mk.injEq] at hvalue
    rw [← hvalue.1]
    exact ⟨left, rfl, hspan left (endsBefore_of_append hends)⟩
  · rintro ⟨left, rfl, h⟩
    obtain ⟨hends, block, rfl, hblock, -⟩ := reads_of_statement h
    obtain ⟨span, hspan⟩ := accepts_of_isStatement hblock
    rw [hspan left hends, Except.ok.injEq, Prod.mk.injEq] at h
    rw [List.append_assoc, ← h.1]
    exact hspan _ (endsBefore_append hends hus)

/-- Tokens among which no statement seems to start hold none. -/
theorem statements_read_of_nextStart (stop : Nat) {ts : Tokens} (hts : Lexemes ts)
    (h : nextStart ts = []) : (read stop ts).statements = [] := by
  cases ts with
  | nil => rw [read_nil]; rfl
  | cons t ts =>
    have hstart : startsStatement (t :: ts) ≠ true := by
      intro hstart
      rw [nextStart_eq_self hstart] at h
      cases h
    have hnil : nextStart ts = [] := by rwa [nextStart, if_neg hstart] at h
    rcases read_cons stop hts with ⟨s, rest, hstatement, -⟩ | ⟨r, -, hread⟩
    · exact absurd (startsStatement_of_ok hstatement) hstart
    · rw [hread, hnil, read_nil]
      rfl

/-- Where reading goes on after an error: before a start, this is at tokens that give the statements
which would be read without it. -/
theorem exists_resumption (stop : Nat) {ts us : Tokens} (hts : Lexemes ts)
    (hus : startsStatement us = true) :
    ∃ left, left <:+ ts ∧ nextStart (ts ++ us) = left ++ us
      ∧ (read stop (nextStart ts)).statements = (read stop left).statements := by
  rcases nextStart_append ts hus with ⟨-, hnext⟩ | ⟨hnil, left, hsuffix, hnext⟩
  · exact ⟨nextStart ts, nextStart_suffix ts, hnext, rfl⟩
  · refine ⟨left, hsuffix, hnext, ?_⟩
    rw [hnil, read_nil, statements_read_of_nextStart stop (hts.of_suffix hsuffix)
      (nextStart_of_suffix hsuffix hnil)]
    rfl

/-- What is read before a start and what is read from it on. The induction is on the length, because an
attempt may begin in the remaining tokens that hold no start of their own. -/
theorem read_append (stop stop' : Nat) {ts us : Tokens} (hts : Lexemes ts) (hus : Lexemes us)
    (hstart : startsStatement us = true) :
    (read stop (ts ++ us)).statements
        = (read stop' ts).statements ++ (read stop us).statements
      ∧ ∃ before, (read stop (ts ++ us)).errors = before ++ (read stop us).errors
        ∧ (before = [] ↔ (read stop' ts).errors = []) := by
  induction hn : ts.length using Nat.strongRecOn generalizing ts with
  | _ n ih =>
  subst hn
  cases ts with
  | nil =>
    rw [List.nil_append, read_nil]
    exact ⟨rfl, [], rfl, Iff.rfl⟩
  | cons t ts =>
    have hne : t :: ts ≠ [] := List.cons_ne_nil t ts
    have htail : Lexemes ts := hts.of_suffix (List.suffix_cons t ts)
    have hall : Lexemes (t :: (ts ++ us)) := hts.append hus
    rcases read_cons stop' hts with ⟨s, left, hstatement, hread⟩ | ⟨r, hstatement, hread⟩
    · have hstatement' : statement (t :: (ts ++ us)) = .ok (s, left ++ us) :=
        (statement_append hne hstart).2 ⟨left, rfl, hstatement⟩
      obtain ⟨hstatements, before, herrors, hbefore⟩ := ih _ (length_lt_of_statement hstatement)
        (hts.of_suffix (suffix_of_statement hstatement)) rfl
      rw [hread, List.cons_append, read_of_ok hstatement']
      refine ⟨?_, before, herrors, hbefore⟩
      rw [statements_push_ok, statements_push_ok, hstatements, List.cons_append]
    · rcases read_cons stop hall with ⟨s, rest, hstatement', -⟩ | ⟨r', -, hread'⟩
      · -- What fails without the start fails before it as well.
        obtain ⟨left, -, hleft⟩ := (statement_append hne hstart).1 hstatement'
        rw [hstatement] at hleft
        cases hleft
      obtain ⟨left, hsuffix, hnext, hleft⟩ := exists_resumption stop' htail hstart
      have hlen : left.length < (t :: ts).length := by
        have := hsuffix.length_le
        simp only [List.length_cons]
        omega
      obtain ⟨hstatements, before, herrors, -⟩ := ih _ hlen (htail.of_suffix hsuffix) rfl
      rw [hread, List.cons_append, hread', hnext]
      refine ⟨?_, r'.toError stop :: before, ?_, ?_⟩
      · rw [statements_push_error, statements_push_error, hstatements, hleft]
      · rw [errors_push_error, herrors, List.cons_append]
      · rw [errors_push_error]
        simp only [reduceCtorEq]

/-- The last token of two parts is that of the second one, if it has any. -/
theorem lastStop_append {ts us : Tokens} (hus : us ≠ []) :
    lastStop (ts ++ us) = lastStop us := by
  simp only [lastStop, List.getLast?_append_of_ne_nil ts hus]

/-- **Nothing is lost before a start.** Whatever stands before a place where a statement seems to start,
what is read from there on is what would be read if nothing stood before it: the statements are those
of both parts, and errors are added in front of those of the second part exactly if the first part has
errors. -/
theorem of_append {ts us : Tokens} (hts : Significant ts) (hus : Significant us)
    (hstart : startsStatement us = true) :
    (of (ts ++ us)).statements = (of ts).statements ++ (of us).statements
    ∧ (∃ before, (of (ts ++ us)).errors = before ++ (of us).errors
      ∧ (before = [] ↔ (of ts).errors = []))
    ∧ (of ts).fault = none ∧ (of us).fault = none ∧ (of (ts ++ us)).fault = none := by
  have hall : Significant (ts ++ us) := List.forall_mem_append.2 ⟨hts, hus⟩
  have hne : us ≠ [] := by rintro rfl; cases hstart
  rw [of_eq_read hts, of_eq_read hus, of_eq_read hall, lastStop_append hne]
  obtain ⟨hstatements, herrors⟩ :=
    read_append (lastStop us) (lastStop ts) hts.lexemes hus.lexemes hstart
  exact ⟨hstatements, herrors, fault_read _ hts.lexemes, fault_read _ hus.lexemes,
    fault_read _ hall.lexemes⟩

/-- A broken date before an opening: a date seems to begin across the two, too. -/
theorem of_append_brokenDate :
    Significant (spread 0 brokenDate) ∧ Significant (spread 12 openingTokens)
    ∧ startsStatement (spread 12 openingTokens) = true
    ∧ (of (spread 0 brokenDate ++ spread 12 openingTokens)).statements
      = (of (spread 0 brokenDate)).statements ++ (of (spread 12 openingTokens)).statements
    ∧ ∃ before, (of (spread 0 brokenDate ++ spread 12 openingTokens)).errors
        = before ++ (of (spread 12 openingTokens)).errors
      ∧ (before = [] ↔ (of (spread 0 brokenDate)).errors = []) := by
  have hbroken : Significant (spread 0 brokenDate) := by decide
  have hopening : Significant (spread 12 openingTokens) := by decide
  have hstart : startsStatement (spread 12 openingTokens) = true := by decide
  obtain ⟨hstatements, herrors, -⟩ := of_append hbroken hopening hstart
  exact ⟨hbroken, hopening, hstart, hstatements, herrors⟩

end Daybook.Parsed
