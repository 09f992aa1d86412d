import Daybook.Proofs.Compilation.Concatenation
import Daybook.Proofs.Syntax.Insertion

/-!
Layout does not change what a source means.

Layout adds comments to the tokens of a source and moves those behind it (`Lexed.of_insert`). Statements
do not see comments, and no production looks at a span, so the same statements are read and the same
complaints are made (`Parsed.relocate_nowhere`). Numbers are given in the order of statements, so the
ledger is the same one, with other spans (`Compilation.relaid_of_layout`).
-/

namespace Daybook

/-- All spans in one place, where they make no difference. -/
def Span.nowhere : Span → Span :=
  fun _ => point 0

/-- Forgetting where things stand preserves unions of spans. -/
theorem Span.preservesUnion_nowhere : PreservesUnion nowhere := by
  intro a b
  exact eq_of_bounds rfl rfl

namespace Parsed

open Production

/-- **What is read, spans apart**, is what the values of the tokens are read as. -/
theorem relocate_nowhere {l : Lexed} (h : Lexemes (significant l)) :
    (of l.tokens).relocate Span.nowhere
      = read 0 ((significant l).map (Spanned.relocate Span.nowhere)) := by
  rw [of_tokens, ← read_relocate Span.preservesUnion_nowhere rfl h]

end Parsed

namespace Compilation

open Parsed Text Text.Utf8

/-- Whether the second compilation differs from the first one in spans only, where those of tokens and
lexical errors are moved in the given way. Comments do not count. -/
structure Relaid (c d : Compilation) (move : Span → Span) : Prop where
  tokens : significant d.lexed = (significant c.lexed).map (Spanned.relocate move)
  lexicalErrors : d.lexed.errors = c.lexed.errors.map (LexError.relocate move)
  ledger : d.ledger.relocate 0 Span.nowhere = c.ledger.relocate 0 Span.nowhere
  syntaxErrors : d.parsed.errors.map (ParseError.relocate Span.nowhere)
    = c.parsed.errors.map (ParseError.relocate Span.nowhere)

/-- Where the significant tokens are the same up to their places, so is what is read from them. -/
theorem parsed_relocate_nowhere {s s' : String} {move : Span → Span}
    (h : significant (Lexed.of s') = (significant (Lexed.of s)).map (Spanned.relocate move)) :
    (of s').parsed.relocate Span.nowhere = (of s).parsed.relocate Span.nowhere := by
  have hvalues : (significant (Lexed.of s')).map (Spanned.relocate Span.nowhere)
      = (significant (Lexed.of s)).map (Spanned.relocate Span.nowhere) := by
    rw [h, List.map_map]
    rfl
  rw [parsed_of, parsed_of, relocate_nowhere (lexemes_significant s'),
    relocate_nowhere (lexemes_significant s), hvalues]

/-- Where the statements are the same up to their places, so is the ledger. -/
theorem ledger_relocate_nowhere {s s' : String}
    (h : (of s').parsed.relocate Span.nowhere = (of s).parsed.relocate Span.nowhere) :
    (of s').ledger.relocate 0 Span.nowhere = (of s).ledger.relocate 0 Span.nowhere := by
  have hledger (source : String) : (of source).ledger.relocate 0 Span.nowhere
      = Ledger.build ((of source).parsed.relocate Span.nowhere).statements := by
    rw [statements_relocate]
    exact (Ledger.buildFrom_relocate 0 1 Span.nowhere _).symm
  rw [hledger, hledger, h]

/-- **Layout does not change meaning.** Let a source be cut, but not inside of a token or of an unreadable
run, nor behind an unreadable run with three capitals at its end. A line feed, white space or a comment
without a quote, and another line feed, put in there, leave the tokens that are no comments and the lexical
errors as they are, those behind the place being moved by the width of the layout; and the ledger and the
syntax errors differ in spans only. -/
theorem relaid_of_layout (before after layout : String) (hlayout : IsLayout layout.toList)
    (htokens : ∀ t ∈ (of (before ++ after)).lexed.tokens, ¬ t.span.HasInside (width before.toList))
    (herrors : ∀ e ∈ (of (before ++ after)).lexed.errors, ¬ e.span.HasInside (width before.toList))
    (hcapitals : ∀ e ∈ (of (before ++ after)).lexed.errors, e.span.stop = width before.toList →
      finalCapitals e.found.toList < 3) :
    Relaid (of (before ++ after)) (of (before ++ layout ++ after))
      (Span.shiftFrom (width before.toList) (width layout.toList)) := by
  rw [lexed_of] at htokens herrors hcapitals
  obtain ⟨front, behind, comments, hcomments, hold, hnew⟩ :=
    Lexed.of_insert hlayout htokens herrors hcapitals
  rw [String.ofList_toList] at hnew
  have hsignificant : significant (Lexed.of (before ++ layout ++ after))
      = (significant (Lexed.of (before ++ after))).map
          (Spanned.relocate (Span.shiftFrom (width before.toList) (width layout.toList))) := by
    have hnone : comments.filter (fun t => !t.value.isComment) = [] := by
      refine List.filter_eq_nil_iff.2 fun t ht => ?_
      rw [hcomments t ht]
      exact Bool.false_ne_true
    rw [← significant_relocate, hold, hnew]
    simp only [significant, Lexed.append, Lexed.prepend, List.filter_append, hnone, List.nil_append]
  have hparsed := parsed_relocate_nowhere hsignificant
  refine ⟨?tokens, ?lexicalErrors, ?ledger, ?syntaxErrors⟩
  case tokens =>
    rw [lexed_of, lexed_of]
    exact hsignificant
  case lexicalErrors =>
    rw [lexed_of, lexed_of, hnew]
    exact (congrArg Lexed.errors hold).symm
  case ledger => exact ledger_relocate_nowhere hparsed
  case syntaxErrors => rw [← errors_relocate, hparsed, errors_relocate]

/-- Capitals that are too many for a currency: the last five are one, and the others cannot be read. -/
def longCapitals : Lexed where
  tokens := [⟨.currency "DEFGH", ⟨3, 8, by decide⟩⟩]
  errors := [⟨⟨0, 3, by decide⟩, "ABC"⟩]

/-- Three capitals that cannot be read because of those behind them are a currency by themselves. -/
theorem not_relaid_of_capitals :
    IsLayout "\n\n".toList
    ∧ (∀ t ∈ (of ("ABC" ++ "DEFGH")).lexed.tokens, ¬ t.span.HasInside (width "ABC".toList))
    ∧ (∀ e ∈ (of ("ABC" ++ "DEFGH")).lexed.errors, ¬ e.span.HasInside (width "ABC".toList))
    ∧ ¬ Relaid (of ("ABC" ++ "DEFGH")) (of ("ABC" ++ "\n\n" ++ "DEFGH"))
        (Span.shiftFrom (width "ABC".toList) (width "\n\n".toList)) := by
  have hlayout : IsLayout "\n\n".toList := IsLayout.blank [] (by simp)
  have hapart : Lexed.of ("ABC" ++ "DEFGH") = longCapitals := by decide +kernel
  have hnone : (Lexed.of ("ABC" ++ "\n\n" ++ "DEFGH")).errors = [] := by decide +kernel
  rw [lexed_of, hapart]
  refine ⟨hlayout, ?_, ?_, ?_⟩
  · exact List.forall_mem_singleton.2 fun hinside => absurd hinside.1 (by decide)
  · exact List.forall_mem_singleton.2 fun hinside => absurd hinside.2 (by decide)
  · intro hrelaid
    have herrors := hrelaid.lexicalErrors
    rw [lexed_of, lexed_of, hnone, hapart] at herrors
    cases herrors

/-- An opening that is cut before the account, and a statement that breaks off. -/
def cutOpening : String × String := ("€ 2020-01-02 open", " assets:cash BRL 2020-01-")

/-- A comment on a line of its own within an opening changes nothing but places. -/
theorem relaid_of_layout_opening :
    Relaid (of (cutOpening.1 ++ cutOpening.2)) (of (cutOpening.1 ++ "\n// note\n" ++ cutOpening.2))
      (Span.shiftFrom (width cutOpening.1.toList) (width "\n// note\n".toList)) := by
  have htokens : (Lexed.of (cutOpening.1 ++ cutOpening.2)).tokens.all (fun t =>
      !decide (t.span.HasInside (width cutOpening.1.toList))) = true := by
    decide +kernel
  have herrors : (Lexed.of (cutOpening.1 ++ cutOpening.2)).errors = [⟨⟨0, 3, by decide⟩, "€"⟩] := by
    decide +kernel
  refine relaid_of_layout cutOpening.1 cutOpening.2 "\n// note\n"
    (IsLayout.comment " note".toList (by decide) (by decide)) ?_ ?_ ?_
  · rw [lexed_of]
    intro t ht hinside
    have hfalse := List.all_eq_true.1 htokens t ht
    rw [decide_eq_true hinside] at hfalse
    cases hfalse
  · rw [lexed_of, herrors]
    exact List.forall_mem_singleton.2 fun hinside => absurd hinside.2 (by decide)
  · rw [lexed_of, herrors]
    exact List.forall_mem_singleton.2 fun _ => by decide

end Compilation

end Daybook
