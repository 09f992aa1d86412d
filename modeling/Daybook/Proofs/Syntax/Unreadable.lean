import Mathlib.Data.List.Pairwise
import Daybook.Proofs.Syntax.Rules
import Daybook.Proofs.Syntax.Tiling

/-!
Unreadable runs are as long as they can be.

`RuleMatches` says by the rules alone what can begin at a byte: white space, or the text of a token of some
kind, with one look ahead behind capitals. It is what decides where a run ends (`canBegin_iff`), and it does
not depend on whether reading ever comes to that byte. Reading goes from place to place (`Reaches`); a run
starts at those places where no rule matches, and goes on to the first byte where one does. Strings are the
only tokens without an end in sight, so of all runs only one can begin with a quote, the last one of the
source. Main statement: `maximal_ofBytes`.
-/

namespace Daybook

namespace Token

open Text

/-! ## Texts of tokens -/

/-- Every text that matches the rule of a kind is that of a token of the kind. -/
theorem exists_of_matches {kind : Kind} {cs : List Char} (h : kind.Matches cs) :
    ∃ t : Token, t.WellFormed ∧ t.kind = kind ∧ t.chars = cs := by
  cases kind with
  | identifier =>
    refine ⟨.identifier (String.ofList cs), ?_, rfl, String.toList_ofList⟩
    rwa [WellFormed, String.toList_ofList, isSegment_iff_matches]
  | number =>
    obtain ⟨d, hsign, hchars⟩ := Decimal.exists_of_matches h
    exact ⟨.number d, hsign, rfl, hchars⟩
  | currency =>
    refine ⟨.currency (String.ofList cs), ?_, rfl, String.toList_ofList⟩
    rwa [WellFormed, String.toList_ofList, isCurrencyCode_iff_matches]
  | movement =>
    rcases h with rfl | rfl
    · exact ⟨.movement "<", .inl rfl, rfl, rfl⟩
    · exact ⟨.movement ">", .inr rfl, rfl, rfl⟩
  | separator =>
    rcases h with rfl | rfl
    · exact ⟨.separator ":", .inl rfl, rfl, rfl⟩
    · exact ⟨.separator "-", .inr rfl, rfl, rfl⟩
  | string =>
    obtain ⟨content, rfl, hquote⟩ := h
    refine ⟨.string (String.ofList content), ?_, rfl, ?_⟩
    · rwa [WellFormed, String.toList_ofList]
    · rw [chars, String.toList_ofList]
  | comment =>
    obtain ⟨content, rfl, hnewline⟩ := h
    refine ⟨.comment (String.ofList content), ?_, rfl, ?_⟩
    · rwa [WellFormed, String.toList_ofList]
    · rw [chars, String.toList_ofList]

/-- A well-formed token matches the rule of its kind. -/
theorem matches_chars {t : Token} (h : t.WellFormed) : t.kind.Matches t.chars := by
  have hmatches := (wellFormed_lexeme h).matches_text
  rwa [lexeme, text, String.toList_ofList] at hmatches

/-- Only a currency begins with a capital. -/
theorem kind_eq_currency {t : Token} {c : Char} {cs : List Char} (h : t.WellFormed)
    (hchars : t.chars = c :: cs) (hc : c.isUpper = true) : t.kind = .currency := by
  have hmatches := matches_chars h
  rw [hchars] at hmatches
  have hne (d : Char) (hd : d.isUpper = false) : c ≠ d := by
    rintro rfl
    rw [hd] at hc
    cases hc
  cases t with
  | identifier name =>
    obtain ⟨_, _, hcons, hlower, -⟩ := hmatches
    rw [← (List.cons.inj hcons).1] at hlower
    rw [(not_isUpper_of_isLower hlower).1] at hc
    cases hc
  | number literal =>
    obtain ⟨first, others, hwhole⟩ := List.exists_cons_of_ne_nil literal.whole_ne_nil
    have hsign : literal.negative = false := h
    have hfirst : c = first.toChar := by
      rw [chars, Decimal.toChars_of_unsigned hsign, hwhole] at hchars
      exact (List.cons.inj hchars).1.symm
    rw [hfirst, (toChar_kinds first).1] at hc
    cases hc
  | currency code => rfl
  | movement symbol =>
    rcases hmatches with hcons | hcons
    · exact absurd (List.cons.inj hcons).1 (hne '<' rfl)
    · exact absurd (List.cons.inj hcons).1 (hne '>' rfl)
  | separator symbol =>
    rcases hmatches with hcons | hcons
    · exact absurd (List.cons.inj hcons).1 (hne ':' rfl)
    · exact absurd (List.cons.inj hcons).1 (hne '-' rfl)
  | string content => exact absurd (List.cons.inj hchars).1.symm (hne '"' rfl)
  | comment content => exact absurd (List.cons.inj hchars).1.symm (hne '/' rfl)

/-- **A token begins with its text**, whatever stands behind it, unless it is a currency and a capital
does. The token that is taken may be a longer one. -/
theorem take?_ne_none {t : Token} {rest : List Char} (h : t.WellFormed)
    (hrest : t.kind = .currency → Halts Char.isUpper rest) : take? (t.chars ++ rest) ≠ none := by
  by_cases hkind : t.kind = .currency
  · have hends : t.EndsBefore rest := by
      cases t with
      | currency code => exact hrest hkind
      | _ => cases hkind
    rw [take?_chars_append h hends]
    exact Option.some_ne_none _
  · -- What can begin in front of more text can begin in front of less.
    have htake := take?_chars_append h t.endsBefore_nil
    rw [List.append_nil] at htake
    intro hnone
    obtain ⟨c, cs, hchars⟩ := List.exists_cons_of_ne_nil (take?_eq_some htake).2
    rw [hchars, List.cons_append] at hnone
    have hless : take? (c :: cs) = none := by
      refine take?_eq_none_of hnone ?_ ?_ ?_
      · intro _ hhead
        cases cs with
        | nil => cases hhead
        | cons d cs => exact hhead
      · intro hupper
        exact absurd (kind_eq_currency h hchars hupper) hkind
      · intro _ hquote hmem
        exact hquote (List.mem_append_left rest hmem)
    rw [← hchars, htake] at hless
    cases hless

end Token

namespace Lexed

open Piece Text Text.Utf8

/-! ## What begins at a byte -/

/-- Whether a rule matches where the bytes begin: that of white space, or that of some kind of tokens for
the first few of them. Capitals are a currency only if no further capital follows. -/
def RuleMatches (bytes : List UInt8) : Prop :=
  (∃ byte rest, bytes = byte :: rest ∧ byte ∈ [9, 10, 11, 12, 13, 32])
    ∨ ∃ (kind : Token.Kind) (text rest : List Char), bytes.map byteChar = text ++ rest
      ∧ kind.Matches text ∧ (kind = .currency → Halts Char.isUpper rest)

/-- **What the reader looks for is what the rules say.** -/
theorem canBegin_iff {bytes : List UInt8} :
    canBegin (bytes.map byteChar) = true ↔ RuleMatches bytes := by
  constructor
  · intro h
    rcases blank_or_token_of_canBegin h with ⟨c, cs, hcons, hblank⟩ | ⟨t, rest, happend, hwf, hends⟩
    · obtain ⟨byte, more, rfl, rfl, -⟩ := List.map_eq_cons_iff.1 hcons
      exact .inl ⟨byte, more, rfl, isBlank_byteChar_iff.1 hblank⟩
    · refine .inr ⟨t.kind, t.chars, rest, happend, Token.matches_chars hwf, ?_⟩
      intro hkind
      cases t with
      | currency code => exact hends
      | _ => cases hkind
  · rintro (⟨byte, rest, rfl, hblank⟩ | ⟨kind, text, rest, happend, hmatches, hrest⟩)
    · exact canBegin_of_isBlank (isBlank_byteChar_iff.2 hblank) _
    · obtain ⟨t, hwf, rfl, rfl⟩ := Token.exists_of_matches hmatches
      obtain ⟨⟨taken, more⟩, htake⟩ := Option.ne_none_iff_exists'.1 (Token.take?_ne_none hwf hrest)
      obtain ⟨hchars, hne⟩ := Token.take?_eq_some htake
      rw [happend, ← hchars]
      exact canBegin_of_token (Token.wellFormed_of_take? htake) (Token.endsBefore_of_take? htake)

/-! ## The places that reading comes to -/

/-- The places that reading comes to: the start, and behind the white space, the token or the unreadable
run that begins at such a place. -/
inductive Reaches (cs : List Char) : Nat → Prop
  | start : Reaches cs 0
  | blank {n : Nat} {c : Char} {ds : List Char} (h : Reaches cs n) (hdrop : cs.drop n = c :: ds)
      (hblank : isBlank c = true) : Reaches cs (n + (c :: ds.takeWhile isBlank).length)
  | token {n : Nat} {t : Token} {rest : List Char} (h : Reaches cs n)
      (htake : Token.take? (cs.drop n) = some (t, rest)) : Reaches cs (n + t.chars.length)
  | unreadable {n : Nat} {c : Char} {ds : List Char} (h : Reaches cs n) (hdrop : cs.drop n = c :: ds)
      (hnone : canBegin (c :: ds) = false) : Reaches cs (n + (c :: (skip ds).1).length)

section Reaches

variable {cs : List Char} {before after : List Piece} {n : Nat}

/-- Behind some pieces of a split text the others are left. -/
theorem drop_of_split (h : split cs = before ++ after) :
    cs.drop (before.flatMap chars).length = after.flatMap chars := by
  have hchars := flatMap_chars_split cs
  rw [h, List.flatMap_append] at hchars
  rw [← hchars, List.drop_left]

/-- The pieces at the end of a split text are a cut text. -/
theorem cut_of_split (h : split cs = before ++ after) : Cut after := by
  have hcut := cut_split cs
  rw [h] at hcut
  exact hcut.of_append_right

/-- One turn of reading goes from a place between two pieces to the next one. -/
theorem exists_split_step {p : Piece} {rest : List Char}
    (h : ∃ before after, split cs = before ++ after ∧ n = (before.flatMap chars).length)
    (hsplit : split (cs.drop n) = p :: split rest) :
    ∃ before after, split cs = before ++ after
      ∧ n + p.chars.length = (before.flatMap chars).length := by
  obtain ⟨before, after, hcs, rfl⟩ := h
  rw [drop_of_split hcs, split_of_cut (cut_of_split hcs)] at hsplit
  refine ⟨before ++ [p], split rest, ?_, ?_⟩
  · rw [hcs, hsplit, List.append_assoc]
    rfl
  · rw [List.flatMap_append, List.flatMap_singleton, List.length_append]

/-- Reading comes to places between two pieces only. -/
theorem exists_split_of_reaches (h : Reaches cs n) :
    ∃ before after, split cs = before ++ after ∧ n = (before.flatMap chars).length := by
  induction h with
  | start => exact ⟨[], split cs, rfl, rfl⟩
  | @blank n c ds _ hdrop hblank ih =>
    have hsplit : split (cs.drop n)
        = .blank (c :: ds.takeWhile isBlank) :: split (ds.dropWhile isBlank) := by
      rw [hdrop, split, if_pos hblank]
    exact exists_split_step ih hsplit
  | token _ htake ih => exact exists_split_step ih (split_of_take? htake)
  | @unreadable n c ds _ hdrop hnone ih =>
    obtain ⟨hblank, htake⟩ := canBegin_cons.1 hnone
    have hsplit : split (cs.drop n) = .unreadable (c :: (skip ds).1) :: split (skip ds).2 := by
      rw [hdrop, split, if_neg (Bool.eq_false_iff.1 hblank)]
      split
      · next htoken => rw [htake] at htoken; cases htoken
      · rfl
    exact exists_split_step ih hsplit

/-- From the front of a piece reading comes to its end. -/
theorem Reaches.behind {p : Piece} {rest : List Char} (h : Reaches cs n)
    (hdrop : cs.drop n = p.chars ++ rest) (hends : p.EndsBefore rest) :
    Reaches cs (n + p.chars.length) := by
  cases p with
  | blank text =>
    obtain ⟨hne, hblank, hrest⟩ := hends
    obtain ⟨c, text, rfl⟩ := List.exists_cons_of_ne_nil hne
    obtain ⟨hc, htext⟩ := List.forall_mem_cons.1 hblank
    have hnext := h.blank hdrop hc
    rwa [List.append_eq, takeWhile_append_halts htext hrest] at hnext
  | token t =>
    have htake : Token.take? (cs.drop n) = some (t, rest) := by
      rw [hdrop]
      exact Token.take?_chars_append hends.1 hends.2
    exact h.token htake
  | unreadable text =>
    obtain ⟨hne, hbarren⟩ := hends
    obtain ⟨c, text, rfl⟩ := List.exists_cons_of_ne_nil hne
    have hnext := h.unreadable hdrop hbarren.1
    rwa [List.append_eq, skip_of_barren hbarren.2] at hnext

/-- **Reading comes to every piece**, and behind the last one. -/
theorem reaches_of_split (h : split cs = before ++ after) :
    Reaches cs (before.flatMap chars).length := by
  induction before using List.reverseRecOn generalizing after with
  | nil => exact .start
  | append_singleton before p ih =>
    rw [List.append_assoc, List.singleton_append] at h
    rw [List.flatMap_append, List.flatMap_singleton, List.length_append]
    exact (ih h).behind (drop_of_split h) (cut_of_split h).1

end Reaches

/-! ## Where the unreadable runs are -/

/-- A placed piece stands behind the bytes of the pieces before it. -/
theorem exists_of_mem_placeBytes {offset : Nat} {ps : List Piece} {q : Spanned Piece}
    (h : q ∈ placeBytes offset ps) : ∃ before p after, ps = before ++ p :: after
      ∧ q.value = p.decoded ∧ q.span.start = offset + (before.flatMap chars).length
      ∧ q.span.stop = q.span.start + p.chars.length := by
  induction ps generalizing offset with
  | nil => cases h
  | cons p ps ih =>
    rcases List.mem_cons.1 h with rfl | hmem
    · exact ⟨[], p, ps, rfl, rfl, rfl, rfl⟩
    · obtain ⟨before, p', after, rfl, hvalue, hstart, hstop⟩ := ih hmem
      refine ⟨p :: before, p', after, rfl, hvalue, ?_, hstop⟩
      rw [hstart, List.flatMap_cons, List.length_append, Nat.add_assoc]

/-- Each piece has a place behind the bytes of those before it. -/
theorem exists_mem_placeBytes (offset : Nat) (before : List Piece) (p : Piece) (after : List Piece) :
    ∃ q ∈ placeBytes offset (before ++ p :: after), q.value = p.decoded
      ∧ q.span.start = offset + (before.flatMap chars).length := by
  induction before generalizing offset with
  | nil => exact ⟨_, List.mem_cons_self, rfl, rfl⟩
  | cons p' before ih =>
    obtain ⟨q, hq, hvalue, hstart⟩ := ih (offset + p'.chars.length)
    refine ⟨q, List.mem_cons_of_mem _ hq, hvalue, ?_⟩
    rw [hstart, List.flatMap_cons, List.length_append, Nat.add_assoc]

section Errors

variable {bytes : List UInt8} {e : LexError}

/-- An error is about an unreadable piece of the bytes. -/
theorem exists_of_mem_errors (h : e ∈ (ofBytes bytes).errors) : ∃ before text after,
    split (bytes.map byteChar) = before ++ .unreadable text :: after
      ∧ e.span.start = (before.flatMap chars).length ∧ e.span.stop = e.span.start + text.length := by
  obtain ⟨q, hq, herror⟩ := List.mem_filterMap.1 h
  obtain ⟨before, p, after, hsplit, hvalue, hstart, hstop⟩ := exists_of_mem_placeBytes hq
  obtain ⟨text, rfl, -⟩ := eq_of_error? herror
  rw [Nat.zero_add] at hstart
  cases p with
  | blank text => cases hvalue
  | token t => cases hvalue
  | unreadable text => exact ⟨before, text, after, hsplit, hstart, hstop⟩

/-- Every unreadable piece has an error. -/
theorem exists_mem_errors {before after : List Piece} {text : List Char}
    (h : split (bytes.map byteChar) = before ++ .unreadable text :: after) :
    ∃ e ∈ (ofBytes bytes).errors, e.span.start = (before.flatMap chars).length := by
  obtain ⟨q, hq, hvalue, hstart⟩ := exists_mem_placeBytes 0 before (.unreadable text) after
  refine ⟨⟨q.span, String.ofList (decodeChars text)⟩, ?_, by rw [hstart, Nat.zero_add]⟩
  rw [ofBytes, h]
  refine List.mem_filterMap.2 ⟨q, hq, ?_⟩
  obtain ⟨value, span⟩ := q
  obtain rfl : value = _ := hvalue
  rfl

/-- What stands behind a place in the bytes. -/
theorem ruleMatches_drop_iff {n : Nat} :
    RuleMatches (bytes.drop n) ↔ canBegin ((bytes.map byteChar).drop n) = true := by
  rw [← canBegin_iff, List.map_drop]

/-- **Nothing begins inside of a run.** -/
theorem not_ruleMatches_of_mem_errors (h : e ∈ (ofBytes bytes).errors) {n : Nat}
    (hstart : e.span.start ≤ n) (hstop : n < e.span.stop) : ¬RuleMatches (bytes.drop n) := by
  obtain ⟨before, text, after, hsplit, hbefore, hlength⟩ := exists_of_mem_errors h
  have hdrop := drop_of_split hsplit
  rw [← hbefore] at hdrop
  obtain ⟨i, rfl⟩ := Nat.exists_eq_add_of_le hstart
  have hi : i < text.length := by omega
  rw [ruleMatches_drop_iff, ← List.drop_drop, hdrop, List.flatMap_cons, chars,
    List.drop_append_of_le_length (Nat.le_of_lt hi), (cut_of_split hsplit).1.2.canBegin_drop hi]
  exact Bool.false_ne_true

/-- **Something begins at the end of a run**, or nothing stands there. -/
theorem ruleMatches_stop_of_mem_errors (h : e ∈ (ofBytes bytes).errors) :
    e.span.stop = bytes.length ∨ RuleMatches (bytes.drop e.span.stop) := by
  obtain ⟨before, text, after, hsplit, hbefore, hlength⟩ := exists_of_mem_errors h
  have hdrop := drop_of_split hsplit
  rw [← hbefore, List.flatMap_cons] at hdrop
  have hrest : (bytes.map byteChar).drop e.span.stop = after.flatMap chars := by
    rw [hlength, ← List.drop_drop, hdrop]
    exact List.drop_left
  rcases (cut_of_split hsplit).1.2.eq_nil_or_canBegin with hnil | hbegin
  · left
    have hall := congrArg List.length hdrop
    rw [hnil] at hall
    simp only [chars, List.length_drop, List.length_map, List.length_append, List.length_nil] at hall
    have hne := List.length_pos_iff.2 (cut_of_split hsplit).1.1
    omega
  · right
    rw [ruleMatches_drop_iff, hrest]
    exact hbegin

/-- No lexical error is empty. -/
theorem lt_of_mem_errors (h : e ∈ (ofBytes bytes).errors) : e.span.start < e.span.stop := by
  obtain ⟨before, text, after, hsplit, -, hlength⟩ := exists_of_mem_errors h
  have hne := List.length_pos_iff.2 (cut_of_split hsplit).1.1
  omega

/-- **A run starts where reading comes to a place at which nothing begins**, and nowhere else. -/
theorem exists_error_iff {n : Nat} : (∃ e ∈ (ofBytes bytes).errors, e.span.start = n)
    ↔ Reaches (bytes.map byteChar) n ∧ n < bytes.length ∧ ¬RuleMatches (bytes.drop n) := by
  constructor
  · rintro ⟨e, he, rfl⟩
    have hlt := lt_of_mem_errors he
    refine ⟨?_, ?_, not_ruleMatches_of_mem_errors he (Nat.le_refl _) hlt⟩
    · obtain ⟨before, text, after, hsplit, hbefore, -⟩ := exists_of_mem_errors he
      rw [hbefore]
      exact reaches_of_split hsplit
    · by_contra hge
      rcases ruleMatches_stop_of_mem_errors he with hstop | hstop
      · omega
      · rw [List.drop_eq_nil_of_le (by omega), ← canBegin_iff] at hstop
        cases hstop
  · rintro ⟨hreach, hlt, hnone⟩
    obtain ⟨before, after, hsplit, rfl⟩ := exists_split_of_reaches hreach
    rw [ruleMatches_drop_iff, drop_of_split hsplit] at hnone
    cases after with
    | nil =>
      have hall := drop_of_split hsplit
      rw [List.flatMap_nil, List.drop_eq_nil_iff, List.length_map] at hall
      omega
    | cons p after =>
      have hends := (cut_of_split hsplit).1
      rw [List.flatMap_cons, canBegin_of_precedes hends.precedes] at hnone
      cases p with
      | blank text => exact absurd rfl hnone
      | token t => exact absurd rfl hnone
      | unreadable text => exact exists_mem_errors hsplit

end Errors

/-! ## Strings without an end -/

/-- Whether the last quote of the bytes stands here. -/
def IsLastQuote (bytes : List UInt8) (n : Nat) : Prop :=
  bytes[n]? = some 34 ∧ ∀ m, bytes[m]? = some 34 → m ≤ n

/-- A quote with another one behind it begins a string. -/
theorem isLastQuote_of_not_ruleMatches {bytes : List UInt8} {n : Nat} (h : bytes[n]? = some 34)
    (hnone : ¬RuleMatches (bytes.drop n)) : IsLastQuote bytes n := by
  have hdrop : bytes.drop n = 34 :: bytes.drop (n + 1) := by
    obtain ⟨hlt, hbyte⟩ := List.getElem?_eq_some_iff.1 h
    rw [List.drop_eq_getElem_cons hlt, hbyte]
  rw [← canBegin_iff, hdrop, List.map_cons, Bool.not_eq_true, canBegin_cons] at hnone
  have hquote : '"' ∉ (bytes.drop (n + 1)).map byteChar := Token.takeString?_eq_none_iff.1 hnone.2
  refine ⟨h, ?_⟩
  intro m hm
  by_contra hlt
  obtain ⟨i, rfl⟩ := Nat.exists_eq_add_of_lt (Nat.lt_of_not_le hlt)
  have hbehind : (bytes.drop (n + 1))[i]? = some 34 := by
    rw [List.getElem?_drop, ← hm]
    congr 1
    omega
  exact hquote (List.mem_map_of_mem (List.mem_of_getElem? hbehind))

/-- Strings that are not closed have a message of their own. -/
theorem isOpenString_iff_message {e : LexError} :
    e.isOpenString = true ↔ e.message = "unterminated string" := by
  constructor
  · intro h
    exact if_pos h
  · intro h
    by_contra hopen
    rw [LexError.message, if_neg hopen] at h
    have hstart := congrArg (fun text : String => text.toList.take 3) h
    rw [String.toList_append, List.take_append_of_le_length (by decide)] at hstart
    exact absurd hstart (by decide)

/-- A text begins with the byte of a quote if it begins with a quote. -/
theorem head?_encode_eq_quote {text : List Char} :
    (encode text).head? = some 34 ↔ text.head? = some '"' := by
  cases text with
  | nil => simp only [encode_nil, List.head?_nil, reduceCtorEq]
  | cons c text =>
    constructor
    · intro h
      have hne : String.utf8EncodeChar c ≠ [] := by
        rw [← List.length_pos_iff, String.length_utf8EncodeChar]
        exact Char.utf8Size_pos c
      rw [encode_cons, List.head?_append_of_ne_nil _ hne] at h
      have hmem : 34 ∈ encode [c] := List.mem_append_left _ (List.mem_of_head? h)
      rw [← List.mem_singleton.1 (mem_of_mem_encode hmem (by decide))]
      rfl
    · intro h
      cases h
      rfl

section Source

variable {source : String} {e : LexError}

/-- The bytes of a run are those of its text. -/
theorem bytes_of_mem_errors (h : e ∈ (ofBytes (encode source.toList)).errors) :
    e.span.bytes source = encode e.found.toList := by
  rw [ofBytes_encode] at h
  exact (tiles_of source).bytes (errorRegion e) (List.mem_merge.2 (.inr (List.mem_map_of_mem h)))

/-- There is no white space in a run. -/
theorem not_blank_of_mem_errors (h : e ∈ (ofBytes (encode source.toList)).errors) :
    ∀ byte ∈ e.span.bytes source, byte ∉ [9, 10, 11, 12, 13, 32] := by
  intro byte hbyte hblank
  obtain ⟨i, hi⟩ := List.mem_iff_getElem?.1 hbyte
  rw [Span.bytes, List.getElem?_take] at hi
  split at hi
  · next hlt =>
    rw [List.getElem?_drop] at hi
    obtain ⟨hinside, rfl⟩ := List.getElem?_eq_some_iff.1 hi
    rw [Span.length] at hlt
    refine not_ruleMatches_of_mem_errors h (n := e.span.start + i) (by omega) (by omega) ?_
    exact .inl ⟨_, _, List.drop_eq_getElem_cons hinside, hblank⟩
  · cases hi

/-- The first byte of a run. -/
theorem isOpenString_iff_byte (h : e ∈ (ofBytes (encode source.toList)).errors) :
    e.isOpenString = true ↔ (encode source.toList)[e.span.start]? = some 34 := by
  have hlt := lt_of_mem_errors h
  have hlength : e.span.length ≠ 0 := by
    rw [Span.length]
    omega
  have hhead := congrArg List.head? (bytes_of_mem_errors h)
  rw [Span.bytes, List.head?_take, if_neg hlength, List.head?_drop] at hhead
  rw [hhead, head?_encode_eq_quote, LexError.isOpenString, decide_eq_true_eq]

/-- **A string lacks its end only at the last quote.** -/
theorem isLastQuote_iff (h : e ∈ (ofBytes (encode source.toList)).errors) :
    e.message = "unterminated string" ↔ IsLastQuote (encode source.toList) e.span.start := by
  rw [← isOpenString_iff_message, isOpenString_iff_byte h]
  constructor
  · intro hquote
    exact isLastQuote_of_not_ruleMatches hquote
      (not_ruleMatches_of_mem_errors h (Nat.le_refl _) (lt_of_mem_errors h))
  · rintro ⟨hquote, -⟩
    exact hquote

/-- The errors of a source, each about one run of it that is as long as it can be. -/
structure Maximal (source : String) (l : Lexed) : Prop where
  nonempty : ∀ e ∈ l.errors, e.span.start < e.span.stop
  barren : ∀ e ∈ l.errors, ∀ n, e.span.start ≤ n → n < e.span.stop →
    ¬RuleMatches ((encode source.toList).drop n)
  ends : ∀ e ∈ l.errors, e.span.stop = (encode source.toList).length
    ∨ RuleMatches ((encode source.toList).drop e.span.stop)
  separate : l.errors.Pairwise fun a b => a.span.stop < b.span.start
  noBlank : ∀ e ∈ l.errors, ∀ byte ∈ e.span.bytes source, byte ∉ [9, 10, 11, 12, 13, 32]
  /-- Errors start where reading comes to a place at which nothing begins. -/
  starts : ∀ n, (∃! e, e ∈ l.errors ∧ e.span.start = n)
    ↔ Reaches ((encode source.toList).map byteChar) n ∧ n < (encode source.toList).length
      ∧ ¬RuleMatches ((encode source.toList).drop n)
  unterminated : (l.errors.filter (·.message = "unterminated string")).length ≤ 1
  lastQuote : ∀ e ∈ l.errors,
    e.message = "unterminated string" ↔ IsLastQuote (encode source.toList) e.span.start

variable (source)

/-- Between two runs something begins. -/
theorem separate_errors : (ofBytes (encode source.toList)).errors.Pairwise
    fun a b => a.span.stop < b.span.start := by
  have happart := apart_errors source
  rw [← ofBytes_encode] at happart
  refine List.Pairwise.imp_of_mem ?_ happart
  intro a b ha hb hle
  refine Nat.lt_of_le_of_ne hle ?_
  intro htouch
  obtain ⟨-, hlt, hnone⟩ := exists_error_iff.1 ⟨b, hb, rfl⟩
  rcases ruleMatches_stop_of_mem_errors ha with hstop | hstop
  · omega
  · rw [htouch] at hstop
    exact hnone hstop

/-- No two lexical errors start at the same place. -/
theorem eq_of_start_eq {a b : LexError} (ha : a ∈ (ofBytes (encode source.toList)).errors)
    (hb : b ∈ (ofBytes (encode source.toList)).errors) (h : a.span.start = b.span.start) :
    a = b := by
  have hapart : (ofBytes (encode source.toList)).errors.Pairwise
      fun a b => a.span.start ≠ b.span.start := by
    refine List.Pairwise.imp ?_ (separate_errors source)
    intro a b hlt
    have := a.span.start_le_stop
    omega
  have : Std.Symm fun a b : LexError => a.span.start ≠ b.span.start := ⟨fun _ _ => Ne.symm⟩
  by_contra hne
  exact hapart.forall ha hb hne h

/-- **Unreadable runs are as long as they can be.** Nothing begins inside of one, and something does at
its end, so that no two of them touch and there is no white space in them. They are where reading comes to
a place at which nothing begins. Only the last quote of a source can lack its end. -/
theorem maximal_ofBytes : Maximal source (ofBytes (encode source.toList)) where
  nonempty _ he := lt_of_mem_errors he
  barren _ he _ hstart hstop := not_ruleMatches_of_mem_errors he hstart hstop
  ends _ he := ruleMatches_stop_of_mem_errors he
  separate := separate_errors source
  noBlank _ he := not_blank_of_mem_errors he
  starts := by
    intro n
    rw [← exists_error_iff]
    constructor
    · rintro ⟨e, ⟨he, hstart⟩, -⟩
      exact ⟨e, he, hstart⟩
    · rintro ⟨e, he, hstart⟩
      refine ⟨e, ⟨he, hstart⟩, ?_⟩
      rintro e' ⟨he', hstart'⟩
      exact eq_of_start_eq source he' he (hstart'.trans hstart.symm)
  unterminated := by
    have hquote : ∀ e ∈ (ofBytes (encode source.toList)).errors.filter
        fun e => e.message = "unterminated string",
        IsLastQuote (encode source.toList) e.span.start := by
      intro e he
      obtain ⟨hmem, hmessage⟩ := List.mem_filter.1 he
      exact (isLastQuote_iff hmem).1 (of_decide_eq_true hmessage)
    have hpairs := (separate_errors source).filter fun e => e.message = "unterminated string"
    generalize (ofBytes (encode source.toList)).errors.filter _ = opened at hquote hpairs ⊢
    match opened with
    | [] => exact Nat.zero_le 1
    | [_] => exact Nat.le_refl 1
    | a :: b :: _ =>
      -- The later of two would start at the last quote, and so would the earlier one.
      have hb := hquote b (List.mem_cons_of_mem _ List.mem_cons_self)
      have hle := (hquote a List.mem_cons_self).2 _ hb.1
      have hlt := (List.pairwise_cons.1 hpairs).1 b List.mem_cons_self
      have := a.span.start_le_stop
      omega
  lastQuote _ he := isLastQuote_iff he

end Source

end Lexed

end Daybook
