import Mathlib.Data.List.DropRight
import Daybook.Proofs.Text.Rows
import Daybook.Text.Blank

/-!
The words of a row.

A row is split at its spaces, and what stands between two spaces that are next to each other is no word
(`words`). So it makes no difference how many spaces there are between two words, or at an end of the row
(`words_append_spaces`, `words_spaces_append`). The texts that tables are made of consist of visible
characters of ASCII; such a text is a single word (`IsWord.words_eq`).
-/

namespace Daybook.Text

/-- The pieces of a text between the places where a character stands. -/
def splitAt (separator : Char) (text : String) : List String :=
  (text.toList.splitOn separator).map String.ofList

/-- **Texts can be told apart by a character that is in none of them.** -/
theorem splitAt_intercalate {separator : Char} {texts : List String}
    (h : ∀ text ∈ texts, separator ∉ text.toList) (hne : texts ≠ []) :
    splitAt separator ((String.singleton separator).intercalate texts) = texts := by
  have hlists : ∀ cs ∈ texts.map String.toList, separator ∉ cs := by
    rw [List.forall_mem_map]
    exact h
  have hlistsne : texts.map String.toList ≠ [] := by
    rwa [ne_eq, List.map_eq_nil_iff]
  rw [splitAt, String.toList_intercalate, String.toList_singleton,
    List.splitOn_intercalate separator hlists hlistsne, List.map_map]
  exact List.map_id'' (fun _ => String.ofList_toList) texts

/-- What a text is split into is the text again. -/
theorem intercalate_splitAt (separator : Char) (text : String) :
    (String.singleton separator).intercalate (splitAt separator text) = text := by
  have hlists : (splitAt separator text).map String.toList = text.toList.splitOn separator := by
    rw [splitAt, List.map_map]
    exact List.map_id'' (fun _ => String.toList_ofList) _
  rw [← String.toList_inj, String.toList_intercalate, String.toList_singleton, hlists]
  exact List.intercalate_splitOn separator

/-! ## Words -/

/-- The words of a row, which are what stands between its spaces. -/
def words (row : String) : List String :=
  (splitAt ' ' row).filter (· ≠ "")

/-- There is no word in nothing. -/
theorem words_empty : words "" = [] := by
  decide

/-- **A space ends a word.** -/
theorem words_append_space (s t : String) : words (s ++ " " ++ t) = words s ++ words t := by
  have hlist : (s ++ " " ++ t).toList = s.toList ++ ' ' :: t.toList := by
    rw [String.toList_append, String.toList_append, List.append_assoc]
    rfl
  rw [words, splitAt, hlist, List.splitOn_append_cons_self, List.map_append, List.filter_append]
  rfl

theorem toList_spaces (count : Nat) : (spaces count).toList = List.replicate count ' ' :=
  String.toList_ofList

/-- Spaces next to spaces are spaces. -/
theorem spaces_append (count more : Nat) : spaces count ++ spaces more = spaces (count + more) := by
  rw [← String.toList_inj, String.toList_append, toList_spaces, toList_spaces, toList_spaces,
    List.replicate_append_replicate]

theorem spaces_succ (count : Nat) : spaces (count + 1) = " " ++ spaces count := by
  rw [Nat.add_comm, ← spaces_append]
  rfl

theorem spaces_succ' (count : Nat) : spaces (count + 1) = spaces count ++ " " := by
  rw [← spaces_append]
  rfl

/-- Spaces behind a text add no word. -/
theorem words_append_spaces (text : String) (count : Nat) : words (text ++ spaces count) = words text := by
  -- The space next to the text goes over to it in each step.
  induction count generalizing text with
  | zero => rw [show spaces 0 = "" from rfl, String.append_empty]
  | succ count ih =>
    rw [spaces_succ, ← String.append_assoc, ih, ← String.append_empty (s := text ++ " "),
      words_append_space, words_empty, List.append_nil]

/-- Spaces in front of a text add no word. -/
theorem words_spaces_append (count : Nat) (text : String) : words (spaces count ++ text) = words text := by
  induction count generalizing text with
  | zero => rw [show spaces 0 = "" from rfl, String.empty_append]
  | succ count ih =>
    rw [spaces_succ', String.append_assoc, ih, ← String.empty_append (s := " " ++ text),
      ← String.append_assoc, words_append_space, words_empty, List.nil_append]

/-- The words of texts with spaces between them are those of each text in turn. -/
theorem words_intercalate (count : Nat) (texts : List String) :
    words ((spaces (count + 1)).intercalate texts) = texts.flatMap words := by
  induction texts with
  | nil => exact words_empty
  | cons text texts ih =>
    cases texts with
    | nil => rw [String.intercalate_singleton, List.flatMap_singleton]
    | cons next texts =>
      rw [String.intercalate_cons_cons, spaces_succ', ← String.append_assoc, words_append_space,
        words_append_spaces, ← spaces_succ', ih, List.flatMap_cons (x := text)]

/-! ## Visible texts -/

/-- Whether a character is a visible one of ASCII. -/
def isVisible (c : Char) : Bool :=
  0x21 ≤ c.toNat && c.toNat ≤ 0x7E

/-- A visible character is no white space. -/
theorem not_isWideBlank_of_isVisible {c : Char} (h : isVisible c = true) : isWideBlank c = false := by
  rw [isVisible, Bool.and_eq_true, decide_eq_true_eq, decide_eq_true_eq] at h
  have hspace : c ≠ ' ' := by
    rintro rfl
    exact absurd h.1 (by decide)
  simp only [isWideBlank, isBlank, hspace, Bool.or_eq_false_iff, Bool.and_eq_false_iff,
    decide_eq_false_iff_not, not_false_eq_true, true_and]
  omega

/-- Visible characters have a byte each. -/
theorem utf8ByteSize_ofList {cs : List Char} (h : ∀ c ∈ cs, isVisible c = true) :
    (String.ofList cs).utf8ByteSize = cs.length := by
  induction cs with
  | nil => rfl
  | cons c cs ih =>
    obtain ⟨hc, hcs⟩ := List.forall_mem_cons.1 h
    have hsize : c.utf8Size = 1 := by
      rw [isVisible, Bool.and_eq_true, decide_eq_true_eq, decide_eq_true_eq] at hc
      rw [Char.utf8Size_eq_one_iff, UInt32.le_iff_toNat_le]
      exact hc.2.trans (by decide)
    rw [← List.singleton_append, String.ofList_append, String.utf8ByteSize_append, ih hcs,
      ← String.singleton_eq_ofList, String.utf8ByteSize_singleton, hsize, List.length_append,
      List.length_singleton]

/-- Whether a text is a word, with visible characters only. -/
structure IsWord (text : String) : Prop where
  ne_empty : text ≠ ""
  visible : ∀ c ∈ text.toList, isVisible c = true

/-- Whether a text is a word can be decided character by character. -/
theorem isWord_of_all {text : String} (h : (text ≠ "" && text.toList.all isVisible) = true) :
    IsWord text := by
  rw [Bool.and_eq_true, decide_eq_true_eq, List.all_eq_true] at h
  exact ⟨h.1, h.2⟩

namespace IsWord

variable {s t : String}

theorem not_mem (h : IsWord t) {c : Char} (hc : isVisible c = false) : c ∉ t.toList := by
  intro hmem
  rw [h.visible c hmem] at hc
  cases hc

/-- Words are on one line. -/
theorem newline_not_mem (h : IsWord t) : '\n' ∉ t.toList :=
  h.not_mem (by decide)

/-- **A word is the only one of itself.** -/
theorem words_eq (h : IsWord t) : words t = [t] := by
  rw [words, splitAt, List.splitOn_eq_singleton (h.not_mem (by decide)), List.map_singleton,
    String.ofList_toList]
  exact List.filter_cons_of_pos (decide_eq_true h.ne_empty)

/-- Words that are put together without a space are one word. -/
theorem append (hs : IsWord s) (ht : IsWord t) : IsWord (s ++ t) where
  ne_empty := fun hempty => hs.ne_empty (String.append_eq_empty_iff.1 hempty).1
  visible := by
    intro c hc
    rw [String.toList_append] at hc
    exact (List.mem_append.1 hc).elim (hs.visible c) (ht.visible c)

/-- Words with a word between them are one word. -/
theorem intercalate (hs : IsWord s) {texts : List String} (hne : texts ≠ [])
    (h : ∀ text ∈ texts, IsWord text) : IsWord (s.intercalate texts) := by
  induction texts with
  | nil => exact absurd rfl hne
  | cons text texts ih =>
    obtain ⟨htext, htexts⟩ := List.forall_mem_cons.1 h
    cases texts with
    | nil => rwa [String.intercalate_singleton]
    | cons next texts =>
      rw [String.intercalate_cons_cons]
      exact (htext.append hs).append (ih (List.cons_ne_nil _ _) htexts)

/-- Nothing is stripped off a text that ends with a word. -/
theorem stripEnd_append (h : IsWord t) (s : String) : stripEnd (s ++ t) = s ++ t := by
  have hne : t.toList ≠ [] := by
    rw [ne_eq, String.toList_eq_nil_iff]
    exact h.ne_empty
  have hstrip : (s ++ t).toList.rdropWhile isWideBlank = (s ++ t).toList := by
    rw [List.rdropWhile_eq_self_iff, String.toList_append]
    intro _
    rw [List.getLast_append_of_ne_nil _ hne,
      not_isWideBlank_of_isVisible (h.visible _ (List.getLast_mem hne))]
    decide
  exact (congrArg String.ofList hstrip).trans String.ofList_toList

end IsWord

end Daybook.Text
