import Daybook.Proofs.Syntax.Reading

/-!
Every token is accounted for.

Reading cuts its tokens into blocks, one for each outcome. `Accounts` says what the blocks are: that of
a statement is the statement and nothing else, that of an error begins where it may, and no statement
seems to start inside of a block. So nothing is skipped silently: wherever a statement seems to start, a
block begins, and its outcome is a statement or an error (`existsUnique_block`).
-/

namespace Daybook.Parsed

open Grammar Production

/-- Consecutive tokens with what came of them. -/
structure Block where
  tokens : Tokens
  outcome : Except ParseError (Spanned Statement)

/-- The tokens of blocks. -/
def Block.join (blocks : List Block) : Tokens :=
  blocks.flatMap (·.tokens)

/-- The tokens are those of the blocks, and the blocks are as reading cuts them. -/
structure Accounts (ts : Tokens) (blocks : List Block) : Prop where
  join_eq : Block.join blocks = ts
  ne_nil : ∀ b ∈ blocks, b.tokens ≠ []
  /-- The block of a statement is that statement. -/
  statement : ∀ b ∈ blocks, ∀ s, b.outcome = .ok s →
    IsStatement (b.tokens.map (·.value)) s.value
      ∧ (Spanned.Increasing ts → s.span = Spanned.extent b.tokens)
  /-- The block of an error comes first, or behind a statement, or a statement seems to start there. -/
  error : ∀ before b after e, blocks = before ++ b :: after → b.outcome = .error e →
    before = [] ∨ (∃ init p s, before = init ++ [p] ∧ p.outcome = .ok s)
      ∨ startsStatement (Block.join (b :: after)) = true
  /-- Behind the first token of a block no statement seems to start. -/
  inside : ∀ before b after, blocks = before ++ b :: after → ∀ n, 0 < n → n < b.tokens.length →
    startsStatement ((Block.join (b :: after)).drop n) = false

namespace Accounts

theorem nil : Accounts [] [] where
  join_eq := rfl
  ne_nil := by simp
  statement := by simp
  error := by simp
  inside := by simp

/-- One more block in front. Behind an error there is nothing, or a statement seems to start. -/
theorem cons {tokens rest : Tokens} {outcome : Except ParseError (Spanned Statement)}
    {blocks : List Block} (hne : tokens ≠ [])
    (hok : ∀ s, outcome = .ok s → IsStatement (tokens.map (·.value)) s.value
      ∧ (Spanned.Increasing tokens → s.span = Spanned.extent tokens))
    (herror : ∀ e, outcome = .error e → rest = [] ∨ startsStatement rest = true)
    (hinside : ∀ n, 0 < n → n < tokens.length → startsStatement ((tokens ++ rest).drop n) = false)
    (h : Accounts rest blocks) : Accounts (tokens ++ rest) (⟨tokens, outcome⟩ :: blocks) where
  join_eq := by rw [← h.join_eq]; rfl
  ne_nil := by
    intro c hc
    rcases List.mem_cons.1 hc with rfl | hc
    · exact hne
    · exact h.ne_nil c hc
  statement := by
    intro c hc s hs
    rcases List.mem_cons.1 hc with rfl | hc
    · exact ⟨(hok s hs).1, fun hinc => (hok s hs).2 (List.pairwise_append.1 hinc).1⟩
    · obtain ⟨hstatement, hspan⟩ := h.statement c hc s hs
      exact ⟨hstatement, fun hinc => hspan (List.pairwise_append.1 hinc).2.1⟩
  error := by
    intro before c after e hsplit hc
    cases before with
    | nil => exact .inl rfl
    | cons d before =>
      obtain ⟨rfl, rfl⟩ := List.cons.inj hsplit
      rcases h.error before c after e rfl hc with rfl | ⟨init, p, s, rfl, hp⟩ | hstart
      · cases outcome with
        | ok s => exact .inr (.inl ⟨[], _, s, rfl, rfl⟩)
        | error e =>
          have hrest : Block.join (c :: after) = rest := h.join_eq
          rw [hrest]
          rcases herror e rfl with hnil | hstart
          · -- The next block has tokens, so there is something behind the error.
            rw [hnil] at hrest
            exact absurd (List.append_eq_nil_iff.1 hrest).1 (h.ne_nil c List.mem_cons_self)
          · exact .inr (.inr hstart)
      · exact .inr (.inl ⟨_ :: init, p, s, rfl, hp⟩)
      · exact .inr (.inr hstart)
  inside := by
    intro before c after hsplit n hpos hlt
    cases before with
    | nil =>
      obtain ⟨rfl, rfl⟩ := List.cons.inj hsplit
      have hjoin : Block.join (⟨tokens, outcome⟩ :: blocks) = tokens ++ rest := by
        rw [← h.join_eq]; rfl
      rw [hjoin]
      exact hinside n hpos hlt
    | cons d before =>
      obtain ⟨rfl, hblocks⟩ := List.cons.inj hsplit
      exact h.inside before c after hblocks n hpos hlt

end Accounts

/-- What is skipped after an error: no statement seems to start there. -/
theorem exists_skipped (ts : Tokens) : ∃ skipped, ts = skipped ++ nextStart ts
    ∧ ∀ n < skipped.length, startsStatement (ts.drop n) = false := by
  induction ts with
  | nil => exact ⟨[], rfl, by simp⟩
  | cons t ts ih =>
    rw [nextStart]
    split
    · exact ⟨[], rfl, by simp⟩
    · next hstart =>
      obtain ⟨skipped, hts, hskipped⟩ := ih
      refine ⟨t :: skipped, by rw [List.cons_append, ← hts], ?_⟩
      intro n hn
      cases n with
      | zero => exact Bool.eq_false_iff.2 hstart
      | succ n => exact hskipped n (by simpa using hn)

/-- **Reading cuts its tokens into blocks.** -/
theorem exists_accounts (stop : Nat) {ts : Tokens} (h : Lexemes ts) :
    ∃ blocks, blocks.map (·.outcome) = (read stop ts).outcomes ∧ Accounts ts blocks := by
  refine read_induction ?nil ?ok ?rejected ts h
  case nil => exact ⟨[], by rw [read_nil]; rfl, Accounts.nil⟩
  case ok =>
    intro t ts s rest _ hstatement ih
    obtain ⟨blocks, houtcomes, haccounts⟩ := ih
    obtain ⟨-, block, hts, hblock, hspan⟩ := reads_of_statement hstatement
    refine ⟨⟨block, .ok s⟩ :: blocks, ?_, ?_⟩
    · rw [read_of_ok hstatement, outcomes_push, List.map_cons, houtcomes]
    · rw [hts]
      refine haccounts.cons ?_ ?_ ?_ ?_
      · rintro rfl
        obtain ⟨_, _, hcons⟩ := hblock.exists_cons
        cases hcons
      · rintro _ ⟨⟩
        exact ⟨hblock, hspan⟩
      · rintro _ ⟨⟩
      · -- Inside of a statement no date seems to begin, whatever follows it.
        intro n hpos hlt
        obtain ⟨n, rfl⟩ : ∃ m, n = m + 1 := ⟨n - 1, by omega⟩
        have hcalm := hblock.calm_tail.beginsDate_drop (n := n)
          (by simp only [List.length_tail, List.length_map]; omega) (rest.map (·.value))
        rw [List.drop_tail, ← List.map_drop, ← List.map_append, ← startsStatement_eq] at hcalm
        rwa [List.drop_append_of_le_length (Nat.le_of_lt hlt)]
  case rejected =>
    intro t ts r _ hstatement ih
    obtain ⟨blocks, houtcomes, haccounts⟩ := ih
    -- The block of the error is its first token and all that is skipped after it.
    obtain ⟨skipped, hts, hskipped⟩ := exists_skipped ts
    refine ⟨⟨t :: skipped, .error (r.toError stop)⟩ :: blocks, ?_, ?_⟩
    · rw [read_of_rejected hstatement, outcomes_push, List.map_cons, houtcomes]
    · have hcons : t :: ts = t :: skipped ++ nextStart ts := by rw [List.cons_append, ← hts]
      rw [hcons]
      refine haccounts.cons (List.cons_ne_nil t skipped) ?_ ?_ ?_
      · rintro _ ⟨⟩
      · rintro _ -
        exact startsStatement_nextStart ts
      · intro n hpos hlt
        obtain ⟨n, rfl⟩ : ∃ m, n = m + 1 := ⟨n - 1, by omega⟩
        rw [← hcons, List.drop_succ_cons]
        exact hskipped n (by simpa using hlt)

/-! ## Where a statement seems to start -/

/-- **A block begins wherever a statement seems to start**, and only one. -/
theorem Accounts.existsUnique_block {ts : Tokens} {blocks : List Block} (h : Accounts ts blocks)
    {n : Nat} (hstart : startsStatement (ts.drop n) = true) :
    ∃! k, k < blocks.length ∧ (Block.join (blocks.take k)).length = n := by
  obtain ⟨rfl, hne, -, -, hinside⟩ := h
  induction blocks generalizing n with
  | nil => rw [show Block.join [] = [] from rfl, List.drop_nil] at hstart; cases hstart
  | cons b blocks ih =>
    have hpos : 0 < b.tokens.length := List.length_pos_iff.2 (hne b List.mem_cons_self)
    have hjoin (k : Nat) : (Block.join ((b :: blocks).take (k + 1))).length
        = b.tokens.length + (Block.join (blocks.take k)).length := List.length_append
    rcases Nat.eq_zero_or_pos n with rfl | hn
    · refine ⟨0, ⟨by simp, rfl⟩, ?_⟩
      rintro (_ | k) ⟨-, hk⟩
      · rfl
      · rw [hjoin] at hk; omega
    rcases Nat.lt_or_ge n b.tokens.length with hlt | hge
    · have hfalse := hinside [] b blocks rfl n hn hlt
      rw [hfalse] at hstart
      cases hstart
    · -- The start lies behind the first block.
      have hdrop : (Block.join (b :: blocks)).drop n
          = (Block.join blocks).drop (n - b.tokens.length) := by
        rw [show Block.join (b :: blocks) = b.tokens ++ Block.join blocks from rfl,
          List.drop_append, List.drop_eq_nil_of_le hge, List.nil_append]
      rw [hdrop] at hstart
      obtain ⟨k, ⟨hk, hlength⟩, hunique⟩ := ih
        (fun c hc => hne c (List.mem_cons_of_mem b hc))
        (fun before c after hsplit => hinside (b :: before) c after (by rw [hsplit]; rfl)) hstart
      refine ⟨k + 1, ⟨by simpa using hk, by rw [hjoin]; omega⟩, ?_⟩
      rintro (_ | k') ⟨hk', hlength'⟩
      · rw [show (Block.join ((b :: blocks).take 0)).length = 0 from rfl] at hlength'; omega
      · rw [hjoin] at hlength'
        rw [hunique k' ⟨by simpa using hk', by omega⟩]

/-- A statement that is read has consecutive tokens, and covers just these. -/
theorem exists_block_of_mem {stop : Nat} {ts : Tokens} {p : Spanned Statement} (h : Lexemes ts)
    (hp : p ∈ (read stop ts).statements) :
    ∃ before block after, ts = before ++ (block ++ after)
      ∧ IsStatement (block.map (·.value)) p.value
      ∧ (Spanned.Increasing ts → p.span = Spanned.extent block) := by
  obtain ⟨blocks, houtcomes, haccounts⟩ := exists_accounts stop h
  obtain ⟨outcome, houtcome, hok⟩ := List.mem_filterMap.1 hp
  rw [← houtcomes] at houtcome
  obtain ⟨b, hb, rfl⟩ := List.mem_map.1 houtcome
  have hb' : b.outcome = .ok p := by
    match hmatch : b.outcome with
    | .ok q =>
      rw [hmatch] at hok
      cases hok
      rfl
    | .error e =>
      rw [hmatch] at hok
      cases hok
  obtain ⟨hstatement, hspan⟩ := haccounts.statement b hb p hb'
  obtain ⟨before, after, rfl⟩ := List.append_of_mem hb
  refine ⟨Block.join before, b.tokens, Block.join after, ?_, hstatement, hspan⟩
  rw [← haccounts.join_eq, Block.join, List.flatMap_append, List.flatMap_cons]
  rfl

/-- Where there is no error, every block is a statement. -/
theorem exists_ok_of_errors_eq_nil {blocks : List Block} {p : Parsed}
    (houtcomes : blocks.map (·.outcome) = p.outcomes) (herrors : p.errors = []) {b : Block}
    (hb : b ∈ blocks) : ∃ s, b.outcome = .ok s := by
  match houtcome : b.outcome with
  | .ok s => exact ⟨s, rfl⟩
  | .error e =>
    have hmem : .error e ∈ p.outcomes := by
      rw [← houtcomes, ← houtcome]
      exact List.mem_map_of_mem hb
    have herror : e ∈ p.errors := List.mem_filterMap.2 ⟨.error e, hmem, rfl⟩
    rw [herrors] at herror
    cases herror

/-- **Every token is accounted for, once.** The tokens of a text are cut into blocks, one for each
outcome in the order in which they arise. Wherever a statement seems to start exactly one block begins,
and without errors every token belongs to a statement. -/
theorem exists_blocks {ts : Tokens} (h : Significant ts) :
    ∃ blocks, blocks.map (·.outcome) = (of ts).outcomes ∧ Accounts ts blocks
      ∧ (∀ n, startsStatement (ts.drop n) = true →
        ∃! k, k < blocks.length ∧ (Block.join (blocks.take k)).length = n)
      ∧ ((of ts).errors = [] → ∀ b ∈ blocks, ∃ s, b.outcome = .ok s)
      ∧ (of ts).fault = none := by
  rw [of_eq_read h]
  obtain ⟨blocks, houtcomes, haccounts⟩ := exists_accounts (lastStop ts) h.lexemes
  refine ⟨blocks, houtcomes, haccounts, ?_, ?_, fault_read _ h.lexemes⟩
  · intro n hstart
    exact haccounts.existsUnique_block hstart
  · intro herrors b hb
    exact exists_ok_of_errors_eq_nil houtcomes herrors hb

/-- A broken date before an opening is a block of its own. -/
theorem exists_blocks_brokenDate :
    Significant (spread 0 (brokenDate ++ openingTokens))
    ∧ ∃ blocks, blocks.map (·.outcome) = (of (spread 0 (brokenDate ++ openingTokens))).outcomes
      ∧ Accounts (spread 0 (brokenDate ++ openingTokens)) blocks
      ∧ ∃! k, k < blocks.length ∧ (Block.join (blocks.take k)).length = 4 := by
  have h : Significant (spread 0 (brokenDate ++ openingTokens)) := by decide
  obtain ⟨blocks, houtcomes, haccounts, hstarts, -⟩ := exists_blocks h
  exact ⟨h, blocks, houtcomes, haccounts, hstarts 4 (by decide)⟩

end Daybook.Parsed
