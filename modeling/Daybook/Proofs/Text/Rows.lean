import Mathlib.Data.List.Basic
import Daybook.Text.Blank
import Daybook.Text.Quoted

/-!
The rows of a text.

A text is split at its newlines (`rows`). A text without newlines is its only row (`rows_of_not_mem`), and
the rows of texts with newlines between them are those of each text in turn (`rows_intercalate`). Where a
text is given by lines with their newlines, these lines are its rows (`rows_eq`).
-/

namespace Daybook.Text

/-- The rows of a text, which are the pieces between its newlines. -/
def rows (text : String) : List String :=
  (text.toList.splitOn '\n').map String.ofList

/-- A text without a line end is one row. -/
theorem rows_of_not_mem {text : String} (h : '\n' ∉ text.toList) : rows text = [text] := by
  rw [rows, List.splitOn_eq_singleton h, List.map_singleton, String.ofList_toList]

/-- **A newline ends a row.** -/
theorem rows_append_newline (s t : String) : rows (s ++ "\n" ++ t) = rows s ++ rows t := by
  have hlist : (s ++ "\n" ++ t).toList = s.toList ++ '\n' :: t.toList := by
    rw [String.toList_append, String.toList_append, List.append_assoc]
    rfl
  rw [rows, hlist, List.splitOn_append_cons_self, List.map_append, rows, rows]

/-- Texts with line ends between them have the rows of all of them. -/
theorem rows_intercalate {texts : List String} (h : texts ≠ []) :
    rows ("\n".intercalate texts) = texts.flatMap rows := by
  induction texts with
  | nil => exact absurd rfl h
  | cons text texts ih =>
    rw [List.flatMap_cons]
    cases texts with
    | nil => rw [String.intercalate_singleton, List.flatMap_nil, List.append_nil]
    | cons next texts =>
      rw [String.intercalate_cons_cons, rows_append_newline, ih (List.cons_ne_nil _ _)]

/-- Texts without newlines are their own rows. -/
theorem flatMap_rows {texts : List String} (h : ∀ text ∈ texts, '\n' ∉ text.toList) :
    texts.flatMap rows = texts := by
  induction texts with
  | nil => rfl
  | cons text texts ih =>
    obtain ⟨htext, htexts⟩ := List.forall_mem_cons.1 h
    rw [List.flatMap_cons, rows_of_not_mem htext, ih htexts, List.singleton_append]

/-! ## Lines with their newlines -/

/-- Lines, each with a newline behind it. -/
def terminated (lines : List (List Char)) : List Char :=
  lines.flatMap (· ++ ['\n'])

theorem terminated_cons (line : List Char) (lines : List (List Char)) :
    terminated (line :: lines) = line ++ '\n' :: terminated lines := by
  rw [terminated, List.flatMap_cons, List.append_assoc]
  rfl

/-- **A text is made of lines with their newlines and a last line without one.** -/
theorem exists_lines (text : List Char) : ∃ lines last, text = terminated lines ++ last
    ∧ (∀ line ∈ lines, '\n' ∉ line) ∧ '\n' ∉ last := by
  induction text with
  | nil => exact ⟨[], [], rfl, by simp, by simp⟩
  | cons c text ih =>
    obtain ⟨lines, last, rfl, hlines, hlast⟩ := ih
    by_cases hc : c = '\n'
    · refine ⟨[] :: lines, last, ?_, List.forall_mem_cons.2 ⟨List.not_mem_nil, hlines⟩, hlast⟩
      rw [hc, terminated_cons]
      rfl
    · have hcons {line : List Char} (h : '\n' ∉ line) : '\n' ∉ c :: line := by
        rw [List.mem_cons]
        rintro (hmem | hmem)
        · exact hc hmem.symm
        · exact h hmem
      cases lines with
      | nil => exact ⟨[], c :: last, rfl, hlines, hcons hlast⟩
      | cons line lines =>
        obtain ⟨hline, hmore⟩ := List.forall_mem_cons.1 hlines
        refine ⟨(c :: line) :: lines, last, ?_, List.forall_mem_cons.2 ⟨hcons hline, hmore⟩, hlast⟩
        rw [terminated_cons, terminated_cons]
        rfl

section Lines

variable {lines : List (List Char)} {last : List Char}

/-- Lines that are terminated are told apart again, whatever follows. -/
theorem splitOn_terminated (h : ∀ line ∈ lines, '\n' ∉ line) (rest : List Char) :
    (terminated lines ++ rest).splitOn '\n' = lines ++ rest.splitOn '\n' := by
  induction lines with
  | nil => rfl
  | cons line lines ih =>
    obtain ⟨hline, hlines⟩ := List.forall_mem_cons.1 h
    rw [terminated_cons, List.append_assoc, List.cons_append,
      List.splitOn_append_cons_self_of_not_mem hline, ih hlines]
    rfl

/-- There is one line end for each line. -/
theorem count_terminated (h : ∀ line ∈ lines, '\n' ∉ line) :
    (terminated lines).count '\n' = lines.length := by
  induction lines with
  | nil => rfl
  | cons line lines ih =>
    obtain ⟨hline, hlines⟩ := List.forall_mem_cons.1 h
    rw [terminated_cons, List.count_append, List.count_eq_zero.2 hline, List.count_cons_self,
      ih hlines, Nat.zero_add, List.length_cons]

/-- There is one row more than there are newlines. -/
theorem length_rows (text : String) : (rows text).length = text.toList.count '\n' + 1 := by
  obtain ⟨lines, last, htext, hlines, hlast⟩ := exists_lines text.toList
  rw [rows, List.length_map, htext, splitOn_terminated hlines, List.splitOn_eq_singleton hlast,
    List.count_append, count_terminated hlines, List.count_eq_zero.2 hlast, List.length_append,
    List.length_singleton]

/-- There is no newline in a row. -/
theorem newline_not_mem_of_mem_rows {text row : String} (h : row ∈ rows text) :
    '\n' ∉ row.toList := by
  obtain ⟨lines, last, htext, hlines, hlast⟩ := exists_lines text.toList
  rw [rows, htext, splitOn_terminated hlines, List.splitOn_eq_singleton hlast] at h
  obtain ⟨line, hline, rfl⟩ := List.mem_map.1 h
  rw [String.toList_ofList]
  rcases List.mem_append.1 hline with hmem | hmem
  · exact hlines line hmem
  · rwa [List.mem_singleton.1 hmem]

end Lines

/-! ## First lines -/

/-- The text up to its first newline. -/
def firstLine (text : List Char) : List Char :=
  text.takeWhile (· ≠ '\n')

/-- The first line has no line end. -/
theorem newline_not_mem_firstLine (text : List Char) : '\n' ∉ firstLine text := by
  intro h
  have hne := List.all_eq_true.1 List.all_takeWhile _ h
  exact of_decide_eq_true hne rfl

theorem firstLine_nil : firstLine [] = [] := rfl

theorem firstLine_newline (text : List Char) : firstLine ('\n' :: text) = [] := rfl

/-- A text without newlines belongs to the first line of every text that begins with it. -/
theorem firstLine_append {text : List Char} (h : '\n' ∉ text) (after : List Char) :
    firstLine (text ++ after) = text ++ firstLine after := by
  refine List.takeWhile_append_of_pos ?_
  intro c hc
  rw [decide_eq_true_eq]
  rintro rfl
  exact h hc

/-- A text without line end is its own first line. -/
theorem firstLine_of_not_mem {text : List Char} (h : '\n' ∉ text) : firstLine text = text := by
  have happend := firstLine_append h []
  rwa [firstLine_nil, List.append_nil] at happend

/-- A text with a newline goes on with it behind its first line. -/
theorem exists_firstLine {text : List Char} (h : '\n' ∈ text) :
    ∃ more, text = firstLine text ++ '\n' :: more := by
  have happend := List.takeWhile_append_dropWhile (p := (· ≠ '\n')) (l := text)
  match hdrop : text.dropWhile (· ≠ '\n') with
  | [] =>
    rw [hdrop, List.append_nil] at happend
    rw [← happend] at h
    exact absurd h (newline_not_mem_firstLine text)
  | c :: more =>
    have hhead := List.head?_dropWhile_not (fun c => decide (c ≠ '\n')) text
    rw [hdrop] at hhead
    simp only [decide_eq_false_iff_not, not_not, List.head?_cons] at hhead
    rw [hdrop, hhead] at happend
    exact ⟨more, happend.symm⟩

/-- The first line of a text with a newline is the same whatever stands behind the text. -/
theorem firstLine_append_of_mem {text : List Char} (h : '\n' ∈ text) (after : List Char) :
    firstLine (text ++ after) = firstLine text := by
  obtain ⟨more, htext⟩ := exists_firstLine h
  conv => lhs; rw [htext, List.append_assoc, firstLine_append (newline_not_mem_firstLine text)]
  rw [List.cons_append, firstLine_newline, List.append_nil]

/-- More text can only make the first line longer. -/
theorem firstLine_append_extends (text after : List Char) : firstLine text <+: firstLine (text ++ after) := by
  by_cases h : '\n' ∈ text
  · exact ⟨[], by rw [List.append_nil, firstLine_append_of_mem h]⟩
  · rw [firstLine_append h, firstLine_of_not_mem h]
    exact List.prefix_append _ _

/-- The first line of a text is the first of its rows. -/
theorem splitOn_newline (text : List Char) : ∃ more, text.splitOn '\n' = firstLine text :: more := by
  by_cases h : '\n' ∈ text
  · obtain ⟨more, htext⟩ := exists_firstLine h
    refine ⟨more.splitOn '\n', ?_⟩
    conv => lhs; rw [htext]
    exact List.splitOn_append_cons_self_of_not_mem (newline_not_mem_firstLine text) more
  · rw [firstLine_of_not_mem h]
    exact ⟨[], List.splitOn_eq_singleton h⟩

/-- The rows of a text around a place in one of its lines. -/
theorem rows_eq {text : String} {lines : List (List Char)} {last rest : List Char}
    (htext : text.toList = terminated lines ++ last ++ rest)
    (hlines : ∀ line ∈ lines, '\n' ∉ line) (hlast : '\n' ∉ last) : ∃ more,
      rows text = lines.map String.ofList ++ String.ofList (last ++ firstLine rest) :: more := by
  obtain ⟨more, hmore⟩ := splitOn_newline (last ++ rest)
  refine ⟨more.map String.ofList, ?_⟩
  rw [rows, htext, List.append_assoc, splitOn_terminated hlines, hmore, firstLine_append hlast,
    List.map_append, List.map_cons]

/-! ## Texts without newlines -/

/-- Texts on one line are on one line when put together. -/
theorem newline_not_mem_append {s t : String} (hs : '\n' ∉ s.toList) (ht : '\n' ∉ t.toList) :
    '\n' ∉ (s ++ t).toList := by
  rw [String.toList_append, List.mem_append]
  rintro (h | h)
  · exact hs h
  · exact ht h

theorem newline_not_mem_spaces (count : Nat) : '\n' ∉ (spaces count).toList := by
  rw [spaces, String.toList_ofList]
  intro h
  cases List.eq_of_mem_replicate h

/-- Texts on one line are so with separators between them, if these are on one line too. -/
theorem newline_not_mem_intercalate {separator : String} (hseparator : '\n' ∉ separator.toList)
    {texts : List String} (h : ∀ text ∈ texts, '\n' ∉ text.toList) :
    '\n' ∉ (separator.intercalate texts).toList := by
  induction texts with
  | nil =>
    rw [String.intercalate_nil]
    exact List.not_mem_nil
  | cons text texts ih =>
    obtain ⟨htext, htexts⟩ := List.forall_mem_cons.1 h
    cases texts with
    | nil => rwa [String.intercalate_singleton]
    | cons next texts =>
      rw [String.intercalate_cons_cons]
      exact newline_not_mem_append (newline_not_mem_append htext hseparator) (ih htexts)

/-- No number has a newline among its digits. -/
theorem newline_not_mem_toDigits {base : Nat} (hbase : 1 < base) (hle : base ≤ 16) (n : Nat) :
    '\n' ∉ Nat.toDigits base n := by
  have hdigit (k : Nat) (hk : k < base) : '\n' ≠ k.digitChar := by
    have hall : ∀ m : Fin 16, '\n' ≠ Nat.digitChar m := by decide
    exact hall ⟨k, Nat.lt_of_lt_of_le hk hle⟩
  induction n using Nat.strongRecOn with
  | ind n ih =>
    rw [Nat.toDigits_eq_if hbase]
    split
    · next hlt =>
      rw [List.mem_singleton]
      exact hdigit n hlt
    · rw [List.mem_append, List.mem_singleton]
      rintro (h | h)
      · exact ih (n / base) (Nat.div_lt_self (by omega) hbase) h
      · exact hdigit _ (Nat.mod_lt n (by omega)) h

/-- Numbers are on one line. -/
theorem newline_not_mem_toString (n : Nat) : '\n' ∉ (toString n).toList := by
  have hrepr : (toString n).toList = Nat.toDigits 10 n := String.toList_ofList
  rw [hrepr]
  exact newline_not_mem_toDigits (by decide) (by decide) n

theorem newline_not_mem_hexDigits (count n : Nat) : '\n' ∉ hexDigits count n := by
  rw [hexDigits, List.mem_append]
  rintro (h | h)
  · cases List.eq_of_mem_replicate h
  · exact newline_not_mem_toDigits (by decide) (by decide) n h

/-- A newline is escaped, and no escape is written with one. -/
theorem newline_not_mem_escape {quote : Char} (hquote : quote ≠ '\n') (c : Char) :
    '\n' ∉ Quoted.escape quote c := by
  have hcons {d : Char} {ds : List Char} (hd : d ≠ '\n') (hds : '\n' ∉ ds) : '\n' ∉ d :: ds := by
    rw [List.mem_cons]
    rintro (h | h)
    · exact hd h.symm
    · exact hds h
  have hdigits (form : Char) (count : Nat) (hform : form ≠ '\n') :
      '\n' ∉ '\\' :: form :: hexDigits count c.toNat :=
    hcons (by decide) (hcons hform (newline_not_mem_hexDigits count c.toNat))
  unfold Quoted.escape
  split
  · next hself =>
    refine hcons (by decide) (hcons ?_ List.not_mem_nil)
    rintro rfl
    simp only [Bool.or_eq_true, decide_eq_true_eq] at hself
    rcases hself with h | h
    · exact absurd h (by decide)
    · exact hquote h.symm
  split
  · decide
  next hnewline =>
  split
  · decide
  split
  · decide
  split
  · exact hcons hnewline List.not_mem_nil
  split
  · exact hdigits 'x' 2 (by decide)
  split
  · exact hdigits 'u' 4 (by decide)
  · exact hdigits 'U' 8 (by decide)

/-- **Quoted text is a single row.** -/
theorem newline_not_mem_quoted (text : String) : '\n' ∉ (quoted text).toList := by
  have hquote : Quoted.quoteFor text.toList ≠ '\n' := by
    unfold Quoted.quoteFor
    split
    · decide
    · decide
  rw [quoted, String.toList_ofList, Quoted.encode]
  intro h
  rcases List.mem_append.1 h with h | h
  · rcases List.mem_cons.1 h with h | h
    · exact hquote h.symm
    · obtain ⟨c, -, hc⟩ := List.mem_flatMap.1 h
      exact newline_not_mem_escape hquote c hc
  · exact hquote (List.mem_singleton.1 h).symm

end Daybook.Text
