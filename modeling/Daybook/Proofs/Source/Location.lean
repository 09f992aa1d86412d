import Mathlib.Data.List.TakeWhile
import Daybook.Proofs.Source.Boundary
import Daybook.Proofs.Text.Rows
import Daybook.Source.Notice

/-!
Locations are exact.

A span of whole characters is the text between two others, and the text before it is made of lines with
their newlines and of a last line without one (`exists_lines`). Bytes play no part from there on: newlines
are bytes of their own, so cutting the bytes at newlines cuts the characters. Hence the row and the column
of the location, and how much of the row is underlined, are those of the text (`exact_of`).
-/

namespace Daybook

open Text Text.Utf8

/-! ## Newlines as bytes -/

/-- The byte of a line feed stands for nothing else. -/
theorem newline_mem_encode_iff {text : List Char} :
    Location.newline ∈ encode text ↔ '\n' ∈ text := by
  constructor
  · intro h
    exact mem_of_mem_encode h (by decide)
  · intro h
    exact List.mem_flatMap.2 ⟨'\n', h, List.mem_singleton_self _⟩

/-- So line feeds may be counted among the bytes. -/
theorem count_encode (text : List Char) :
    (encode text).count Location.newline = text.count '\n' := by
  induction text with
  | nil => rfl
  | cons c text ih =>
    rw [encode_cons, List.count_append, ih, List.count_cons, Nat.add_comm]
    congr 1
    by_cases hc : c = '\n'
    · rw [hc]
      rfl
    · have hnot : Location.newline ∉ String.utf8EncodeChar c := by
        intro hmem
        have hchar : '\n' ∈ [c] := newline_mem_encode_iff.1 (List.mem_append_left _ hmem)
        exact hc (List.mem_singleton.1 hchar).symm
      rw [List.count_eq_zero.2 hnot, if_neg]
      rw [beq_iff_eq]
      exact hc

/-- A newline is read from its own byte only. -/
theorem newline_mem_of_firstChar? {bytes : List UInt8} (h : firstChar? bytes = some '\n') :
    Location.newline ∈ bytes := by
  obtain ⟨rest, hrest⟩ := ByteArray.exists_of_utf8DecodeChar?_eq_some h
  have hlist := congrArg (fun b : ByteArray => b.data.toList) hrest
  simp only [ByteArray.data_append, Array.toList_append, List.data_toByteArray] at hlist
  rw [hlist]
  exact List.mem_append_left _ (List.mem_singleton_self _)

/-- Bytes without the byte of the newline are shown without newlines, also where they are broken. -/
theorem newline_not_mem_decode {bytes : List UInt8} (h : Location.newline ∉ bytes) :
    '\n' ∉ decode bytes := by
  fun_induction decode bytes with
  | case1 => exact List.not_mem_nil
  | case2 byte rest c hchar ih =>
    rw [List.mem_cons]
    rintro (hc | hmem)
    · rw [← hc] at hchar
      exact h (List.mem_of_mem_take (newline_mem_of_firstChar? hchar))
    · exact ih (fun hrest => h (List.mem_cons_of_mem _ (List.mem_of_mem_drop hrest))) hmem
  | case3 byte rest _ ih =>
    rw [List.mem_cons]
    rintro (hc | hmem)
    · cases hc
    · exact ih (fun hrest => h (List.mem_cons_of_mem _ (List.mem_of_mem_drop hrest))) hmem

/-! ## Lines as bytes -/

/-- The bytes behind the last newline are those of the last line. -/
theorem afterLastNewline_encode {last : List Char} (h : '\n' ∉ last) (lines : List (List Char)) :
    Location.afterLastNewline (encode (terminated lines ++ last)) = encode last := by
  have hlast : ∀ byte ∈ (encode last).reverse, decide (byte ≠ Location.newline) = true := by
    intro byte hbyte
    rw [decide_eq_true_eq]
    rintro rfl
    exact h (newline_mem_encode_iff.1 (List.mem_reverse.1 hbyte))
  rw [Location.afterLastNewline, encode_append, List.reverse_append,
    List.takeWhile_append_of_pos hlast]
  rcases List.eq_nil_or_concat lines with rfl | ⟨init, line, rfl⟩
  · rw [terminated, List.flatMap_nil, encode_nil, List.reverse_nil, List.takeWhile_nil,
      List.append_nil, List.reverse_reverse]
  · have hnewline : (encode (terminated (init ++ [line]))).reverse
        = Location.newline :: (encode (terminated init ++ line)).reverse := by
      rw [terminated, List.flatMap_append, List.flatMap_singleton, ← List.append_assoc, encode_append,
        List.reverse_append]
      rfl
    rw [List.concat_eq_append, hnewline, List.takeWhile_cons_of_neg (by decide), List.append_nil,
      List.reverse_reverse]

/-- The bytes before the first newline are those of the first line. -/
theorem beforeNewline_encode (text : List Char) :
    Location.beforeNewline (encode text) = encode (firstLine text) := by
  have hfirst : ∀ byte ∈ encode (firstLine text), decide (byte ≠ Location.newline) = true := by
    intro byte hbyte
    rw [decide_eq_true_eq]
    rintro rfl
    exact newline_not_mem_firstLine text (newline_mem_encode_iff.1 hbyte)
  rw [Location.beforeNewline]
  by_cases h : '\n' ∈ text
  · obtain ⟨more, htext⟩ := exists_firstLine h
    have hrest : (encode ('\n' :: more)).takeWhile (· ≠ Location.newline) = [] := rfl
    conv => lhs; rw [htext]
    rw [encode_append, List.takeWhile_append_of_pos hfirst, hrest, List.append_nil]
  · rw [firstLine_of_not_mem h] at hfirst ⊢
    exact List.takeWhile_eq_self_iff.2 hfirst

section Middle

variable (text after : List Char)

/-- As many bytes of the first line as the text has are those of the first line of the text. -/
theorem take_firstLine :
    (encode (firstLine (text ++ after))).take (width text) = encode (firstLine text) := by
  by_cases h : '\n' ∈ text
  · obtain ⟨more, htext⟩ := exists_firstLine h
    have hwidth := congrArg width htext
    rw [width_append] at hwidth
    rw [firstLine_append_of_mem h, List.take_of_length_le]
    rw [length_encode]
    omega
  · rw [firstLine_append h, firstLine_of_not_mem h, encode_append, ← length_encode, List.take_left]

/-- The text goes on after the first line if there is a newline in it. -/
theorem width_firstLine_lt_iff : width (firstLine (text ++ after)) < width text ↔ '\n' ∈ text := by
  by_cases h : '\n' ∈ text
  · obtain ⟨more, htext⟩ := exists_firstLine h
    have hwidth := congrArg width htext
    have hpos := Char.utf8Size_pos '\n'
    rw [width_append, width_cons] at hwidth
    rw [firstLine_append_of_mem h]
    simp only [h, iff_true]
    omega
  · rw [firstLine_append h, width_append]
    simp only [h, iff_false]
    omega

end Middle

/-- There is no newline in the text of a line, whatever the span cuts. -/
theorem Location.newline_not_mem_lineText (source : String) (span : Span) :
    '\n' ∉ (Location.of source span).lineText.toList := by
  have hcut {bytes : List UInt8} : newline ∉ bytes.takeWhile (· ≠ newline) := by
    intro h
    have hne := List.all_eq_true.1 List.all_takeWhile _ h
    exact of_decide_eq_true hne rfl
  rw [Location.of, String.toList_ofList]
  refine newline_not_mem_decode ?_
  rw [List.mem_append, afterLastNewline, List.mem_reverse, beforeNewline]
  rintro (h | h)
  · exact hcut h
  · exact hcut h

/-! ## The text of a span -/

/-- A span of whole characters is the text between two others. -/
theorem Span.IsWhole.exists_middle {text : List Char} {s : Span} (h : s.IsWhole text) :
    ∃ before middle after, text = before ++ middle ++ after ∧ s.start = width before
      ∧ s.stop = width before + width middle := by
  obtain ⟨before, rest, hstart, hwidth⟩ := h.start
  obtain ⟨init, after, hstop, hinit⟩ := h.stop
  have hprefix : before <+: init := by
    rcases List.prefix_or_prefix_of_prefix (hstart ▸ List.prefix_append before rest)
      (hstop ▸ List.prefix_append init after) with hle | ⟨more, hmore⟩
    · exact hle
    · -- The span does not end before it starts.
      have hle := s.start_le_stop
      rw [hwidth, hinit, ← hmore, width_append] at hle
      have hnil : more = [] := by
        by_contra hne
        have := width_pos hne
        omega
      exact ⟨[], by rw [List.append_nil, ← hmore, hnil, List.append_nil]⟩
  obtain ⟨middle, rfl⟩ := hprefix
  rw [width_append] at hinit
  exact ⟨before, middle, after, hstop, hwidth, hinit⟩

namespace Location

/-- The byte at which a column of a row begins, both counted from one: behind the rows before it with
their newlines, and behind the characters before it. -/
def offset (source : String) (line column : Nat) : Nat :=
  width (terminated (((rows source).take (line - 1)).map String.toList))
    + width (((rows source).getD (line - 1) "").toList.take (column - 1))

/-- The location is where the span starts, and what is underlined is the span up to its first newline. -/
structure IsExact (source : String) (span : Span) (l : Location) : Prop where
  line_pos : 0 < l.line
  column_pos : 0 < l.column
  lineText_eq : (rows source)[l.line - 1]? = some l.lineText
  column_le : l.column - 1 ≤ l.lineText.toList.length
  start_eq : span.start = offset source l.line l.column
  underline_eq : firstLine (span.slice source).toList ≠ [] →
    l.underline = (firstLine (span.slice source).toList).length
      ∧ (l.lineText.toList.drop (l.column - 1)).take l.underline
        = firstLine (span.slice source).toList
  underline_of_empty : firstLine (span.slice source).toList = [] → l.underline = 1
  continues_iff : l.continues = true ↔ '\n' ∈ (span.slice source).toList

section Source

variable {source : String} {span : Span} {lines : List (List Char)} {last text after : List Char}

/-- The location of a span of whole characters, by the lines of its source. -/
theorem of_eq (hsource : source.toList = terminated lines ++ last ++ text ++ after)
    (hlines : ∀ line ∈ lines, '\n' ∉ line) (hlast : '\n' ∉ last)
    (hstart : span.start = width (terminated lines ++ last))
    (hstop : span.stop = width (terminated lines ++ last) + width text) :
    of source span =
      { line := lines.length + 1
        column := last.length + 1
        lineText := String.ofList (last ++ firstLine (text ++ after))
        underline := max 1 (firstLine text).length
        continues := decide ('\n' ∈ text) } := by
  have hbytes : encode source.toList
      = encode (terminated lines ++ last) ++ encode (text ++ after) := by
    rw [hsource, List.append_assoc, encode_append]
  have hlength := congrArg List.length hbytes
  rw [List.length_append, length_encode (terminated lines ++ last), length_encode (text ++ after),
    width_append text] at hlength
  have hfrom : min span.start (encode source.toList).length = width (terminated lines ++ last) := by
    omega
  have hto : min (max span.stop (width (terminated lines ++ last))) (encode source.toList).length
      = width (terminated lines ++ last) + width text := by
    omega
  have htake : (encode source.toList).take (width (terminated lines ++ last))
      = encode (terminated lines ++ last) := by
    rw [hbytes, ← length_encode, List.take_left]
  have hdrop : (encode source.toList).drop (width (terminated lines ++ last))
      = encode (text ++ after) := by
    rw [hbytes, ← length_encode, List.drop_left]
  have hcount : (encode (terminated lines ++ last)).count newline = lines.length := by
    rw [count_encode, List.count_append, count_terminated hlines, List.count_eq_zero.2 hlast]
    rfl
  simp only [of, hfrom, hto, htake, hdrop, hcount, afterLastNewline_encode hlast,
    beforeNewline_encode, shownWidth, Nat.add_sub_cancel_left, take_firstLine, ← encode_append,
    decode_encode]
  simp only [length_encode, Nat.add_lt_add_iff_left, width_firstLine_lt_iff]

/-- **The location of a span of whole characters is exact.** -/
theorem isExact_of (h : span.IsWhole source.toList) : IsExact source span (of source span) := by
  obtain ⟨before, text, after, hsource, hstart, hstop⟩ := h.exists_middle
  obtain ⟨lines, last, rfl, hlines, hlast⟩ := exists_lines before
  have hslice : (span.slice source).toList = text := by
    rw [Span.slice_of_append hsource hstart hstop, String.toList_ofList]
  obtain ⟨more, hrows⟩ := rows_eq (by rw [hsource, List.append_assoc]) hlines hlast
  have hbefore : ((rows source).take lines.length).map String.toList = lines := by
    rw [hrows, List.take_left' (List.length_map _), List.map_map]
    exact List.map_id'' (fun _ => String.toList_ofList) lines
  have hat : (rows source)[lines.length]?
      = some (String.ofList (last ++ firstLine (text ++ after))) := by
    rw [hrows, List.getElem?_append_right (List.length_map _).le, List.length_map, Nat.sub_self]
    rfl
  rw [of_eq hsource hlines hlast hstart hstop]
  refine ⟨?line_pos, ?column_pos, ?lineText_eq, ?column_le, ?start_eq, ?underline_eq,
    ?underline_of_empty, ?continues_iff⟩
  all_goals simp only [Nat.add_sub_cancel, String.toList_ofList, hslice]
  case line_pos => exact Nat.succ_pos _
  case column_pos => exact Nat.succ_pos _
  case lineText_eq => exact hat
  case column_le =>
    rw [List.length_append]
    exact Nat.le_add_right _ _
  case start_eq =>
    rw [hstart, offset, Nat.add_sub_cancel, Nat.add_sub_cancel, hbefore, List.getD_eq_getElem?_getD,
      hat, Option.getD_some, String.toList_ofList, List.take_left, width_append]
  case underline_eq =>
    intro hne
    rw [Nat.max_eq_right (List.length_pos_iff.2 hne), List.drop_left]
    exact ⟨rfl, (List.prefix_iff_eq_take.1 (firstLine_append_extends text after)).symm⟩
  case underline_of_empty =>
    intro hempty
    rw [hempty]
    rfl
  case continues_iff => exact decide_eq_true_iff

end Source

/-! ## Carets below the row -/

/-- The row that is shown at the index is that of the location, behind its number. Below it there are the
carets, the first one in the column of the character at which the location is. -/
def PointedAt (l : Location) (shown : List String) (index : Nat) : Prop :=
  ∃ row carets column, shown[index]? = some row ∧ shown[index + 1]? = some carets
    ∧ row.toList = (toString l.line ++ " | ").toList ++ l.lineText.toList
    ∧ column = (toString l.line ++ " | ").length + (l.column - 1)
    ∧ row.toList.drop column = l.lineText.toList.drop (l.column - 1)
    ∧ carets.toList[column]? = some '^' ∧ '^' ∉ carets.toList.take column

/-- The line with the name of the source and the place in it. -/
def arrow (sourceName : String) (l : Location) : String :=
  Text.spaces (toString l.line).length ++ "--> " ++ sourceName ++ ":" ++ toString l.line ++ ":"
    ++ toString l.column

/-- The empty line below it. -/
def gutter (l : Location) : String :=
  Text.spaces (toString l.line).length ++ " |"

/-- The row with the number of the line and its text. -/
def row (l : Location) : String :=
  toString l.line ++ " | " ++ l.lineText

/-- What stands in front of the carets, as wide as what stands in front of the place in the row. -/
def margin (l : Location) : List Char :=
  List.replicate (toString l.line).length ' ' ++ " | ".toList ++ List.replicate (l.column - 1) ' '

/-- The row with the carets. -/
def carets (l : Location) : String :=
  String.ofList (l.margin ++ List.replicate l.underline '^'
    ++ if l.continues then " ...".toList else [])

/-- The margin is as wide as the line number, its bar, and what stands before the caret. -/
theorem length_margin (l : Location) :
    l.margin.length = (toString l.line ++ " | ").length + (l.column - 1) := by
  rw [margin, List.length_append, List.length_append, List.length_replicate, List.length_replicate,
    String.length_append]
  rfl

theorem mem_margin {l : Location} {c : Char} (h : c ∈ l.margin) : c = ' ' ∨ c = '|' := by
  rcases List.mem_append.1 h with h | h
  · rcases List.mem_append.1 h with h | h
    · exact .inl (List.eq_of_mem_replicate h)
    · have hcases : c = ' ' ∨ c = '|' ∨ c = ' ' := by simpa using h
      rcases hcases with rfl | rfl | rfl
      · exact .inl rfl
      · exact .inr rfl
      · exact .inl rfl
  · exact .inl (List.eq_of_mem_replicate h)

/-- Carets are on one line. -/
theorem newline_not_mem_carets (l : Location) : '\n' ∉ l.carets.toList := by
  rw [carets, String.toList_ofList]
  intro h
  rcases List.mem_append.1 h with h | h
  · rcases List.mem_append.1 h with h | h
    · rcases mem_margin h with h | h
      · cases h
      · cases h
    · cases List.eq_of_mem_replicate h
  · split at h
    · exact absurd h (by decide)
    · cases h

/-- The lines of an excerpt. -/
theorem excerpt_of (sourceName : String) (l : Location) :
    Notice.excerpt sourceName l = [l.arrow sourceName, l.gutter, l.row, l.carets] := by
  have hcarets : Text.spaces (toString l.line).length ++ " | " ++ Text.spaces (l.column - 1)
      ++ (if l.continues then String.ofList (List.replicate l.underline '^') ++ " ..."
        else String.ofList (List.replicate l.underline '^')) = l.carets := by
    rw [carets, margin, Text.spaces, Text.spaces, ← String.toList_inj]
    cases l.continues with
    | false => simp only [String.toList_append, String.toList_ofList, Bool.false_eq_true, if_false,
        List.append_nil]
    | true => simp only [String.toList_append, String.toList_ofList, if_true, List.append_assoc]
  rw [← hcarets]
  rfl

/-- The name of the source is all of the line that can go over a line end. -/
theorem count_arrow (sourceName : String) (l : Location) :
    (l.arrow sourceName).toList.count '\n' = sourceName.toList.count '\n' := by
  have hmark : "--> ".toList.count '\n' = 0 := by decide
  have hcolon : ":".toList.count '\n' = 0 := by decide
  simp only [arrow, String.toList_append, List.count_append, hmark, hcolon,
    List.count_eq_zero.2 (newline_not_mem_spaces _),
    List.count_eq_zero.2 (newline_not_mem_toString _), Nat.zero_add, Nat.add_zero]

theorem newline_not_mem_gutter (l : Location) : '\n' ∉ l.gutter.toList :=
  newline_not_mem_append (newline_not_mem_spaces _) (by decide)

/-- The row that shows a line is one line. -/
theorem newline_not_mem_row {l : Location} (h : '\n' ∉ l.lineText.toList) : '\n' ∉ l.row.toList := by
  refine newline_not_mem_append ?_ h
  exact newline_not_mem_append (newline_not_mem_toString _) (by decide)

/-- The rows of a notice about a span. -/
theorem rows_render (source sourceName : String) {span : Span} {n : Notice}
    (hspan : n.span = some span) : rows (n.render source sourceName) = rows n.headline
      ++ rows ((of source span).arrow sourceName)
      ++ [(of source span).gutter, (of source span).row, (of source span).carets]
      ++ (Notice.detailLines (Text.spaces (toString (of source span).line).length)
        n.details).flatMap rows := by
  have hrow := newline_not_mem_row (newline_not_mem_lineText source span)
  rw [Notice.render, rows_intercalate, Notice.lines, hspan]
  · simp only [excerpt_of, List.cons_append, List.nil_append, List.flatMap_cons, List.append_assoc,
      rows_of_not_mem (newline_not_mem_gutter _), rows_of_not_mem hrow,
      rows_of_not_mem (newline_not_mem_carets _)]
  · rw [Notice.lines, hspan]
    exact List.cons_ne_nil _ _

/-- **The first caret stands below the place where the span starts**, however many digits the number of
the line has. -/
theorem pointedAt_render {source : String} {span : Span} {n : Notice} (hspan : n.span = some span)
    (sourceName : String) : PointedAt (of source span) (rows (n.render source sourceName))
      (n.headline.toList.count '\n' + sourceName.toList.count '\n' + 3) := by
  have hunderline : 0 < (of source span).underline := Nat.le_max_left 1 _
  have hshown := rows_render source sourceName hspan
  generalize of source span = l at hunderline hshown ⊢
  have habove : (rows n.headline ++ rows (l.arrow sourceName) ++ [l.gutter]).length
      = n.headline.toList.count '\n' + sourceName.toList.count '\n' + 3 := by
    rw [List.length_append, List.length_append, length_rows, length_rows, count_arrow,
      List.length_singleton]
    omega
  have happend : rows (n.render source sourceName)
      = (rows n.headline ++ rows (l.arrow sourceName) ++ [l.gutter])
        ++ l.row :: l.carets :: (Notice.detailLines (Text.spaces (toString l.line).length)
          n.details).flatMap rows := by
    rw [hshown]
    simp only [List.append_assoc, List.cons_append, List.nil_append]
  rw [← habove, happend]
  refine ⟨l.row, l.carets, _, ?row, ?carets, ?row_eq, rfl, ?drop_eq, ?caret, ?first⟩
  case row =>
    rw [List.getElem?_append_right (Nat.le_refl _), Nat.sub_self]
    rfl
  case carets =>
    rw [List.getElem?_append_right (Nat.le_add_right _ 1), Nat.add_sub_cancel_left]
    rfl
  case row_eq => exact String.toList_append
  case drop_eq =>
    rw [row, String.toList_append, ← String.length_toList, ← List.drop_drop, List.drop_left]
  case caret =>
    obtain ⟨k, hk⟩ := Nat.exists_eq_succ_of_ne_zero (Nat.ne_of_gt hunderline)
    rw [← length_margin, carets, hk, List.replicate_succ, String.toList_ofList, List.append_assoc,
      List.getElem?_append_right (Nat.le_refl _), Nat.sub_self]
    rfl
  case first =>
    rw [← length_margin, carets, String.toList_ofList, List.append_assoc, List.take_left]
    intro hmem
    rcases mem_margin hmem with h | h
    · cases h
    · cases h

/-- **Locations are exact.** The row and the column of a span of whole characters are where it starts, and
no other span that starts elsewhere has them. Its first line is what is underlined, and a notice about it
shows the first caret right below. -/
theorem located_exactly {source : String} {span : Span} (h : span.IsWhole source.toList) :
    IsExact source span (of source span)
      ∧ (∀ other : Span, other.IsWhole source.toList → (of source other).line = (of source span).line →
        (of source other).column = (of source span).column → other.start = span.start)
      ∧ ∀ (n : Notice) (sourceName : String), n.span = some span →
        PointedAt (of source span) (rows (n.render source sourceName))
          (n.headline.toList.count '\n' + sourceName.toList.count '\n' + 3) := by
  refine ⟨isExact_of h, ?_, ?_⟩
  · intro other hother hline hcolumn
    rw [(isExact_of hother).start_eq, (isExact_of h).start_eq, hline, hcolumn]
  · intro n sourceName hspan
    exact pointedAt_render hspan sourceName

/-- A span over a line end, behind a character of two bytes. -/
theorem located_exactly_over_newline :
    (⟨2, 4, by decide⟩ : Span).IsWhole "éa\nb".toList
      ∧ of "éa\nb" ⟨2, 4, by decide⟩ = ⟨1, 2, "éa", 1, true⟩
      ∧ IsExact "éa\nb" ⟨2, 4, by decide⟩ (of "éa\nb" ⟨2, 4, by decide⟩) := by
  have hwhole : (⟨2, 4, by decide⟩ : Span).IsWhole "éa\nb".toList :=
    ⟨⟨['é'], ['a', '\n', 'b'], by decide, rfl⟩, ⟨['é', 'a', '\n'], ['b'], by decide, rfl⟩, by decide⟩
  exact ⟨hwhole, by decide +kernel, (located_exactly hwhole).1⟩

end Location

end Daybook
