import Daybook.Proofs.Account.Order
import Daybook.Proofs.Account.Path
import Daybook.Proofs.Compilation.Concatenation
import Daybook.Proofs.Syntax.RoundTrip
import Daybook.Proofs.Syntax.Rules

/-!
Two ways to read an account.

A path is split at its colons, and what it is split into is checked afterwards. In a source the same account is
a word and up to three pairs of a colon and a word, and only tokens are looked at. Both accept the same texts: a
path names an account just if it is the path of that account (`Account.parse_eq_ok_iff`), which is a kind and one
to three segments (`Account.isPath_iff`); and the tokens of an account are its path, cut into pieces
(`Grammar.IsAccount.chars_eq`). So a path that can be parsed can be opened in a source, and every account of a
ledger stands in the source as its path.
-/

namespace Daybook

/-! ## Paths -/

namespace Account

/-- Whether a text is the word for a kind and one to three segments, with colons between them. -/
def IsPath (path : String) : Prop :=
  ∃ (kind : AccountKind) (segments : List String), 1 ≤ segments.length ∧ segments.length ≤ 3
    ∧ (∀ s ∈ segments, Token.Kind.identifier.Matches s.toList)
    ∧ path = String.intercalate ":" (kind.keyword :: segments)

/-- **The paths are those of accounts.** -/
theorem isPath_iff {path : String} : IsPath path ↔ ∃ a : Account, a.path = path := by
  constructor
  · rintro ⟨kind, segments, hpos, hle, hsegments, rfl⟩
    have hne : segments ≠ [] := List.length_pos_iff.1 hpos
    exact ⟨⟨kind, segments, hne, hle, fun s hs => Token.isSegment_iff_matches.2 (hsegments s hs)⟩, rfl⟩
  · rintro ⟨a, rfl⟩
    refine ⟨a.kind, a.segments, List.length_pos_iff.2 a.ne_nil, a.length_le, ?_, rfl⟩
    intro s hs
    exact Token.isSegment_iff_matches.1 (a.isSegment s hs)

/-- Building an account changes nothing. -/
theorem of_of?_eq_ok {kind : AccountKind} {segments : List String} {a : Account}
    (h : of? kind segments = .ok a) : a.kind = kind ∧ a.segments = segments := by
  unfold of? at h
  split at h
  · cases h
  split at h
  · cases h
  split at h
  · cases h
  · cases h
    exact ⟨rfl, rfl⟩

/-- What is read from a path has this path. -/
theorem path_of_parse {path : String} {a : Account} (h : parse path = .ok a) : a.path = path := by
  have hword : ofKeyword (String.ofList (splitPath path.toList).1)
      ((splitPath path.toList).2.map String.ofList) = .ok a := h
  unfold ofKeyword at hword
  split at hword
  · next kind hkind =>
    obtain ⟨hkind', hsegments⟩ := of_of?_eq_ok hword
    -- Nothing is lost in splitting, so what was checked piece by piece is the path.
    have hpieces : a.kind.keyword :: a.segments = Text.splitAt ':' path := by
      rw [hkind', hsegments, AccountKind.keyword_of_ofKeyword? hkind, Text.splitAt, ← splitPath_eq,
        List.map_cons]
    rw [Account.path, hpieces]
    exact Text.intercalate_splitAt ':' path
  · cases hword

/-- **A path names the account of which it is the path**, and no other one. -/
theorem parse_eq_ok_iff {path : String} {a : Account} : parse path = .ok a ↔ a.path = path := by
  constructor
  · exact path_of_parse
  · rintro rfl
    exact a.parse_path

/-- What is no path is refused. -/
theorem exists_error_of_not_isPath {path : String} (h : ¬ IsPath path) :
    ∃ e, parse path = .error e := by
  cases hparse : parse path with
  | error e => exact ⟨e, rfl⟩
  | ok a => exact absurd (isPath_iff.2 ⟨a, path_of_parse hparse⟩) h

end Account

/-! ## Tokens -/

namespace Grammar

theorem toList_joinPath_cons_cons (word name : String) (names : List String) :
    (Account.joinPath (word :: name :: names)).toList
      = word.toList ++ ':' :: (Account.joinPath (name :: names)).toList := by
  simp [Account.joinPath, String.toList_intercalate]

/-- The tokens of a path, put together, are the path as it is written. -/
theorem IsPath.chars_eq {ts : List Token} {names : List String} (h : IsPath ts names) (word : String) :
    word.toList ++ ts.flatMap Token.chars = (Account.joinPath (word :: names)).toList := by
  induction h generalizing word with
  | nil => simp [Account.joinPath]
  | @cons name ts names _ ih =>
    rw [toList_joinPath_cons_cons, ← ih name]
    rfl

/-- **The tokens of an account are its path, cut into pieces.** -/
theorem IsAccount.chars_eq {ts : List Token} {a : Account} (h : IsAccount ts a) :
    ts.flatMap Token.chars = a.path.toList := by
  obtain ⟨hpath⟩ := h
  exact hpath.chars_eq a.kind.keyword

end Grammar

/-! ## Accounts of statements -/

/-- The accounts that a statement is about. -/
def Statement.accounts : Statement → List Account
  | .opening _ a _ => [a]
  | .assertion _ a _ => [a]
  | .transaction _ _ ms _ => ms.map (·.account)

namespace Grammar

/-- Every account of some movements is written in a run of their tokens. -/
theorem IsMovements.exists_isAccount {ts : List Token} {ms : List Movement} (h : IsMovements ts ms)
    {a : Account} (ha : a ∈ ms.map (·.account)) : ∃ us, us <:+: ts ∧ IsAccount us a := by
  induction h with
  | nil => cases ha
  | cons first others ih =>
    rcases List.mem_cons.1 ha with rfl | ha
    · obtain ⟨-, haccount⟩ := first
      exact ⟨_, (List.suffix_append _ _).isInfix.trans (List.prefix_append _ _).isInfix, haccount⟩
    · obtain ⟨us, hinfix, haccount⟩ := ih ha
      exact ⟨us, hinfix.trans (List.suffix_append _ _).isInfix, haccount⟩

/-- Every account of a statement is written in a run of its tokens. -/
theorem IsBody.exists_isAccount {date : Date} {ts : List Token} {s : Statement} (h : IsBody date ts s)
    {a : Account} (ha : a ∈ s.accounts) : ∃ us, us <:+: ts ∧ IsAccount us a := by
  cases h with
  | opening account =>
    obtain rfl := List.mem_singleton.1 ha
    exact ⟨_, List.infix_append [_] _ _, account⟩
  | assertion account amount =>
    obtain rfl := List.mem_singleton.1 ha
    exact ⟨_, List.infix_append [_] _ _, account⟩
  | transaction legs =>
    obtain ⟨us, hinfix, haccount⟩ := legs.exists_isAccount ha
    exact ⟨us, hinfix.trans (List.suffix_append [_, _] _).isInfix, haccount⟩

/-- The tokens of a statement contain those of its accounts. -/
theorem IsStatement.exists_isAccount {ts : List Token} {s : Statement} (h : IsStatement ts s)
    {a : Account} (ha : a ∈ s.accounts) : ∃ us, us <:+: ts ∧ IsAccount us a := by
  cases h with
  | bare day body =>
    obtain ⟨us, hinfix, haccount⟩ := body.exists_isAccount ha
    exact ⟨us, hinfix.trans (List.suffix_append _ _).isInfix, haccount⟩
  | colon day body =>
    obtain ⟨us, hinfix, haccount⟩ := body.exists_isAccount ha
    have hcolon := hinfix.trans (List.suffix_cons (.separator ":") _).isInfix
    exact ⟨us, hcolon.trans (List.suffix_append _ _).isInfix, haccount⟩

end Grammar

namespace Ledger

/-- Entries are about the accounts of the movements that they are made from. -/
theorem account_mem_of_mem_entriesFrom {next parent : Nat} {date : Date} {description : String}
    {span : Span} {ms : List Movement} {e : Entry}
    (h : e ∈ entriesFrom next parent date description span ms) : e.account ∈ ms.map (·.account) := by
  induction ms generalizing next with
  | nil => cases h
  | cons m ms ih =>
    rw [entriesFrom] at h
    rcases List.mem_cons.1 h with rfl | h
    · exact List.mem_cons_self
    · exact List.mem_cons_of_mem _ (ih h)

/-- The accounts of a ledger are those of its entries, of its assertions and of its openings. -/
theorem mem_accounts {l : Ledger} {a : Account} : a ∈ l.accounts ↔
    a ∈ l.entries.map (·.account) ∨ a ∈ l.assertions.map (·.account)
      ∨ a ∈ l.openings.map (·.account) := by
  rw [accounts, Account.mem_sorted, List.mem_append, List.mem_append, or_assoc]

/-- **Every account of a ledger is one of a statement.** -/
theorem exists_of_mem_accounts {next : Nat} {ps : List (Spanned Statement)} {a : Account}
    (h : a ∈ (buildFrom next ps).accounts) : ∃ p ∈ ps, a ∈ p.value.accounts := by
  induction ps generalizing next with
  | nil =>
    rw [mem_accounts] at h
    rcases h with h | h | h <;> cases h
  | cons p ps ih =>
    obtain ⟨s, span⟩ := p
    -- What is not in the statement in front is in the ledger of the others.
    have hmore {n : Nat} (h : a ∈ s.accounts ∨ a ∈ (buildFrom n ps).accounts) :
        ∃ p ∈ ⟨s, span⟩ :: ps, a ∈ p.value.accounts := by
      rcases h with hhere | hthere
      · exact ⟨_, List.mem_cons_self, hhere⟩
      · obtain ⟨p, hp, ha⟩ := ih hthere
        exact ⟨p, List.mem_cons_of_mem _ hp, ha⟩
    rw [mem_accounts] at h
    cases s with
    | opening date b c =>
      refine hmore (n := next + 1) ?_
      rw [mem_accounts]
      rcases h with h | h | h
      · exact .inr (.inl h)
      · exact .inr (.inr (.inl h))
      · rcases List.mem_cons.1 h with rfl | h
        · exact .inl List.mem_cons_self
        · exact .inr (.inr (.inr h))
    | assertion date b amount =>
      refine hmore (n := next + 1) ?_
      rw [mem_accounts]
      rcases h with h | h | h
      · exact .inr (.inl h)
      · rcases List.mem_cons.1 h with rfl | h
        · exact .inl List.mem_cons_self
        · exact .inr (.inr (.inl h))
      · exact .inr (.inr (.inr h))
    | transaction date description ms ne_nil =>
      refine hmore (n := next + 1 + ms.length) ?_
      rw [mem_accounts]
      rcases h with h | h | h
      · obtain ⟨e, he, rfl⟩ := List.mem_map.1 h
        rcases List.mem_append.1 he with he | he
        · exact .inl (account_mem_of_mem_entriesFrom he)
        · exact .inr (.inl (List.mem_map_of_mem he))
      · exact .inr (.inr (.inl h))
      · exact .inr (.inr (.inr h))

end Ledger

/-! ## Accounts of a source -/

namespace Compilation

open Parsed Text

/-- **Every account of a ledger stands in the source**, as tokens that are its path. -/
theorem exists_tokens_of_mem_accounts {source : String} {a : Account}
    (h : a ∈ (of source).ledger.accounts) :
    ∃ ts, ts <:+: (significant (of source).lexed).map (·.value)
      ∧ ts.flatMap Token.chars = a.path.toList := by
  have hledger : (of source).ledger = Ledger.build (Parsed.of (Lexed.of source).tokens).statements := by
    rw [← parsed_of]
    rfl
  rw [hledger] at h
  obtain ⟨p, hp, ha⟩ := Ledger.exists_of_mem_accounts h
  -- The statement is a block of tokens, and the account a part of this block.
  obtain ⟨before, block, after, hblock, hstatement, -⟩ :=
    exists_block_of_mem (lexemes_significant source) hp
  obtain ⟨ts, hinfix, haccount⟩ := hstatement.exists_isAccount ha
  refine ⟨ts, hinfix.trans ?_, haccount.chars_eq⟩
  rw [lexed_of, hblock, List.map_append, List.map_append]
  exact ⟨before.map (·.value), after.map (·.value), by rw [List.append_assoc]⟩

/-- **A statement that can be written is all that is read** from what it is written as. -/
theorem of_text {s : Statement} (h : s.Writable) :
    (of s.text).diagnostics = []
    ∧ (of s.text).ledger = Ledger.build [⟨s, ⟨0, Utf8.width s.text.toList, Nat.zero_le _⟩⟩] := by
  obtain ⟨herrors, hsignificant, -, hread⟩ := yields_source (List.forall_mem_singleton.2 h) 0
  rw [Statement.source, List.map_singleton, String.intercalate_singleton, ← Lexed.of_eq_readAt]
    at herrors hsignificant hread
  have hplaced : Statement.placed 0 [s]
      = [⟨s, ⟨0, Utf8.width s.text.toList, Nat.zero_le _⟩⟩] := by
    simp [Statement.placed]
  have hparsed : (of s.text).parsed
      = ⟨[.ok ⟨s, ⟨0, Utf8.width s.text.toList, Nat.zero_le _⟩⟩], none⟩ := by
    rw [parsed_of, of_eq_read hsignificant, hread, hplaced]
    rfl
  refine ⟨?_, ?_⟩
  · rw [diagnostics, lexed_of, herrors, hparsed]
    exact List.mergeSort_nil
  · have hledger : (of s.text).ledger = Ledger.build (of s.text).parsed.statements := rfl
    rw [hledger, hparsed]
    rfl

end Compilation

namespace Account

open Parsed (significant sampleDay brl)

/-- **The two readers of accounts agree.** A path can be parsed just if it is a kind and one to three segments,
and is refused as no account otherwise. What it is parsed as has this path and is found again from it; and the
path can be opened in a source, in any currency and on any day that the grammar has, with no complaint and
nothing else in the ledger. Conversely, every account in the ledger of a source is what its path is parsed as,
and this path stands in the source, one token after the other. -/
theorem readers_agree :
    (∀ path : String, ((∃ a, parse path = .ok a) ↔ IsPath path)
      ∧ (¬ IsPath path → ∃ e, parse path = .error e ∧ e.fault.name = "InvalidAccountError"))
    ∧ (∀ path a, parse path = .ok a → a.path = path)
    ∧ (∀ a : Account, parse a.path = .ok a)
    ∧ (∀ path a, parse path = .ok a → ∀ (date : Date) (c : Currency),
      1000 ≤ date.year → date.year ≤ 3000 →
        let source := date.iso ++ " open " ++ path ++ " " ++ c.code
        (Compilation.of source).diagnostics = []
        ∧ (Compilation.of source).ledger = { openings :=
            [⟨1, a, date, c, ⟨0, Text.Utf8.width source.toList, Nat.zero_le _⟩⟩] })
    ∧ ∀ source : String, ∀ a ∈ (Compilation.of source).ledger.accounts, parse a.path = .ok a
      ∧ ∃ ts, ts <:+: (significant (Compilation.of source).lexed).map (·.value)
        ∧ ts.flatMap Token.chars = a.path.toList := by
  refine ⟨?_, fun _ _ => path_of_parse, parse_path, ?_, ?_⟩
  · intro path
    refine ⟨?_, ?_⟩
    · rw [isPath_iff]
      exact exists_congr fun a => parse_eq_ok_iff
    · intro h
      obtain ⟨e, he⟩ := exists_error_of_not_isPath h
      exact ⟨e, he, rfl⟩
  · intro path a hparse date c hfrom hto
    obtain rfl := path_of_parse hparse
    exact Compilation.of_text (s := .opening date a c) ⟨hfrom, hto⟩
  · intro source a ha
    exact ⟨a.parse_path, Compilation.exists_tokens_of_mem_accounts ha⟩

/-- An account whose segments are words of the grammar, one of them with underscores at its end. -/
def awkward : Account :=
  ⟨.equity, ["open", "balance", "transaction__"], List.cons_ne_nil _ _, by decide, by decide⟩

/-- Words of the grammar may be segments, and a segment must not be empty. -/
theorem readers_agree_awkward :
    parse "equity:open:balance:transaction__" = .ok awkward
    ∧ awkward.path = "equity:open:balance:transaction__"
    ∧ ¬ IsPath "equity::open"
    ∧ (∃ e, parse "equity::open" = .error e ∧ e.fault.name = "InvalidAccountError")
    ∧ 1000 ≤ sampleDay.year ∧ sampleDay.year ≤ 3000
    ∧ (Compilation.of (sampleDay.iso ++ " open " ++ "equity:open:balance:transaction__" ++ " "
      ++ brl.code)).diagnostics = []
    ∧ awkward ∈ (Compilation.of (sampleDay.iso ++ " open " ++ "equity:open:balance:transaction__"
      ++ " " ++ brl.code)).ledger.accounts
    ∧ parse awkward.path = .ok awkward := by
  obtain ⟨hpaths, hpath, hback, hopened, hledgers⟩ := readers_agree
  have hparse : parse "equity:open:balance:transaction__" = .ok awkward :=
    parse_eq_ok_iff.2 (by decide)
  have hrefused : ¬ IsPath "equity::open" := by
    rw [← (hpaths "equity::open").1]
    rintro ⟨a, ha⟩
    have herror : parse "equity::open" = .error ⟨"equity::open", .badSegment ""⟩ := by decide +kernel
    rw [herror] at ha
    cases ha
  have hfrom : 1000 ≤ sampleDay.year := by decide
  have hto : sampleDay.year ≤ 3000 := by decide
  obtain ⟨hdiagnostics, hledger⟩ := hopened _ _ hparse sampleDay brl hfrom hto
  have hmem : awkward ∈ (Compilation.of (sampleDay.iso ++ " open "
      ++ "equity:open:balance:transaction__" ++ " " ++ brl.code)).ledger.accounts := by
    rw [hledger, Ledger.mem_accounts]
    exact .inr (.inr List.mem_cons_self)
  exact ⟨hparse, hpath _ _ hparse, hrefused, (hpaths _).2 hrefused, hfrom, hto, hdiagnostics, hmem,
    (hledgers _ _ hmem).1⟩

end Account

end Daybook
