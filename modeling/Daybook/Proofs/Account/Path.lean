import Daybook.Account.Basic
import Daybook.Proofs.Syntax.Cutting
import Daybook.Proofs.Text.Words

/-!
Accounts and their paths.

An account is built from its own kind and segments (`Account.of?_segments`). The words of its path have no
colons in them, so they are found again between those of the path, and an account can be read back from its
path (`Account.parse_path`). A path is a single word of visible characters (`Account.isWord_path`).
-/

namespace Daybook

open Text

/-- Keywords are written in visible characters of ASCII. -/
theorem AccountKind.isWord_keyword (kind : AccountKind) : IsWord kind.keyword := by
  cases kind <;> exact isWord_of_all (by decide)

/-- A segment is a word. -/
theorem isWord_of_isSegment {name : String} (h : isSegment name.toList = true) : IsWord name where
  ne_empty := by
    rintro rfl
    cases h
  visible := by
    intro c hc
    have hchar := Token.isIdentifierChar_of_mem h c hc
    rw [Token.isIdentifierChar, Bool.or_eq_true, decide_eq_true_eq] at hchar
    rcases hchar with hlower | rfl
    · rw [Token.isLower_iff] at hlower
      rw [isVisible, Bool.and_eq_true, decide_eq_true_eq, decide_eq_true_eq]
      omega
    · decide

/-- There is no colon in a segment. -/
theorem colon_not_mem_of_isSegment {name : String} (h : isSegment name.toList = true) :
    ':' ∉ name.toList := by
  intro hmem
  exact absurd (Token.isIdentifierChar_of_mem h ':' hmem) (by decide)

namespace Account

variable (a : Account)

/-- **An account is built from its kind and its segments.** -/
theorem of?_segments : of? a.kind a.segments = .ok a := by
  unfold of?
  have hle := a.length_le
  rw [dif_neg a.ne_nil, dif_neg (by omega)]
  split
  · next segment hfind =>
    have hmem := List.mem_of_find?_eq_some hfind
    have hbad := List.find?_some hfind
    simp [a.isSegment segment hmem] at hbad
  · rfl

/-- The path of an account is one word, because colons and segments are visible. -/
theorem isWord_path : IsWord a.path := by
  refine IsWord.intercalate (isWord_of_all (by decide)) (List.cons_ne_nil _ _) ?_
  refine List.forall_mem_cons.2 ⟨a.kind.isWord_keyword, ?_⟩
  intro name hname
  exact isWord_of_isSegment (a.isSegment name hname)

theorem splitPath_cons (c : Char) (cs : List Char) : splitPath (c :: cs)
    = if c = ':' then ([], (splitPath cs).1 :: (splitPath cs).2)
      else (c :: (splitPath cs).1, (splitPath cs).2) := rfl

/-- A path is split where colons stand. -/
theorem splitPath_eq (cs : List Char) : (splitPath cs).1 :: (splitPath cs).2 = cs.splitOn ':' := by
  induction cs with
  | nil => rfl
  | cons c cs ih =>
    rw [List.splitOn_cons_eq_if_modifyHead, ← ih, splitPath_cons]
    by_cases hc : c = ':'
    · rw [if_pos hc, if_pos (beq_iff_eq.2 hc)]
    · rw [if_neg hc, if_neg (by rwa [beq_iff_eq])]
      rfl

/-- **An account can be read back from its path.** -/
theorem parse_path : parse a.path = .ok a := by
  have hcolon : ∀ word ∈ a.kind.keyword :: a.segments, ':' ∉ word.toList := by
    refine List.forall_mem_cons.2 ⟨?_, ?_⟩
    · cases a.kind <;> decide
    · intro name hname
      exact colon_not_mem_of_isSegment (a.isSegment name hname)
  have hsplit : splitAt ':' a.path = a.kind.keyword :: a.segments :=
    splitAt_intercalate hcolon (List.cons_ne_nil _ _)
  rw [splitAt, ← splitPath_eq, List.map_cons] at hsplit
  obtain ⟨hhead, htail⟩ := List.cons.inj hsplit
  have hparse : parse a.path = ofKeyword (String.ofList (splitPath a.path.toList).1)
      ((splitPath a.path.toList).2.map String.ofList) := rfl
  rw [hparse, hhead, htail, ofKeyword, AccountKind.ofKeyword?_keyword]
  exact a.of?_segments

end Account

end Daybook
