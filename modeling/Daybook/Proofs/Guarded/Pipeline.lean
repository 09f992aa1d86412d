import Daybook.Proofs.Compilation.Placement
import Daybook.Proofs.Guarded.Checking
import Daybook.Proofs.Guarded.Lexing
import Daybook.Proofs.Guarded.Narrating
import Daybook.Proofs.Guarded.Parsing
import Daybook.Proofs.Guarded.Printing

/-!
Nothing breaks off.

From any source to its balance sheet, and to the text of everything that is wrong with it, no guarded step
breaks off, and each stage gives what it gives without guards (`unbroken_of`): no symbol, tag or segment of a
source is refused, no transaction is empty, no span has its ends in the wrong order, no place is outside of a
list, and no number is too long. The stages are those of the modules beside this one, put together.
-/

namespace Daybook.Guarded

open Text.Utf8 (width)
open Numeral (digitLimit)

-- Powers are those of the core library, whatever else is in scope.
attribute [local instance (high)] instPowNat

/-- Reads a source. -/
def compiled (source : String) : Guarded Compilation := do
  let lexed ← lexed source
  let parsed ← parsed lexed.tokens
  let ledger ← ledger parsed.statements
  return ⟨lexed, parsed, ledger⟩

/-- The tokens of every source are read. -/
theorem parsed_tokens (source : String) :
    parsed (Compilation.of source).lexed.tokens = .ok (Compilation.of source).parsed := by
  rw [Compilation.lexed_of, Compilation.parsed_of]
  exact parsed_eq source

/-- **Every source is compiled.** -/
theorem compiled_eq (source : String) : compiled source = .ok (Compilation.of source) := by
  rw [compiled, bind_of_eq (lexed_eq source), bind_of_eq (parsed_tokens source),
    bind_of_eq (ledger_eq _)]
  rfl

/-- Each guarded stage gives the compilation, the validation and the balance sheet that the stages give that
run, what they report on the way is accepted, and everything that is wrong has a text. The numbers of a notice
count lines and characters: they pass the limit only in a source of `10 ^ digitLimit` bytes or so, which no
memory holds. All the rest is for sources of any length. -/
structure Unbroken (sourceName source : String) (selection : Option (List Check)) (failFast : Bool)
    (c : Compilation) (v : Validation) (s : BalanceSheet) : Prop where
  lexing : lexed source = .ok c.lexed
  parsing : parsed c.lexed.tokens = .ok c.parsed
  compiling : compiled source = .ok c
  narrating : ∀ context, actAll context (c.actions sourceName source) = .ok context
  selecting : c.ledger.validate (names selection) failFast = .ok v
  checking : validated c.ledger (names selection) failFast = .ok (.of v)
  reporting : ∀ context, actAll context (v.actions c.ledger) = .ok context
  printing : sheet s = .ok s.render
  diagnosing : width source.toList + 1 < 10 ^ digitLimit → ∀ d ∈ c.diagnostics,
    rendered source sourceName d.notice = .ok (d.notice.render source sourceName)
  tracing : width source.toList + 1 < 10 ^ digitLimit → ∀ f ∈ v.findings,
    rendered source sourceName f.notice = .ok (f.notice.render source sourceName)

/-- **Nothing breaks off**, whatever the source, the checks selected and the date of the balance sheet. -/
theorem unbroken_of (sourceName source : String) (selection : Option (List Check)) (failFast : Bool)
    (asOf : Option Date) :
    Unbroken sourceName source selection failFast (Compilation.of source)
      (Validation.run (Compilation.of source).ledger failFast (chosen selection))
      (BalanceSheet.of (Compilation.of source).ledger asOf) := by
  constructor
  case lexing => exact lexed_eq source
  case parsing => exact parsed_tokens source
  case compiling => exact compiled_eq source
  case narrating => exact actAll_of_steady (steady_compilation sourceName source _)
  case selecting => exact validate_names _ selection failFast
  case checking => exact validated_eq _ selection failFast
  case reporting => exact actAll_of_steady (steady_validation _ _)
  case printing => exact sheet_eq _
  case diagnosing =>
    intro hwidth d _
    exact rendered_eq sourceName d.notice hwidth
  case tracing =>
    intro hwidth f _
    exact rendered_eq sourceName f.notice hwidth

/-- A source with a byte that begins no token, and with a transaction that does not balance. -/
def lopsided : String := "? 2020-01-01 transaction \"x\" > 1 BRL assets:cash"

/-- Its one diagnostic and its two findings have texts. -/
theorem unbroken_of_lopsided :
    (Compilation.of lopsided).diagnostics.length = 1
      ∧ (Validation.run (Compilation.of lopsided).ledger false Check.all).findings.length = 2
      ∧ width lopsided.toList + 1 < 10 ^ digitLimit
      ∧ (∀ d ∈ (Compilation.of lopsided).diagnostics,
        rendered lopsided "book" d.notice = .ok (d.notice.render lopsided "book"))
      ∧ ∀ f ∈ (Validation.run (Compilation.of lopsided).ledger false Check.all).findings,
        rendered lopsided "book" f.notice = .ok (f.notice.render lopsided "book") := by
  have hwidth : width lopsided.toList + 1 < 10 ^ digitLimit := by decide +kernel
  have h := unbroken_of "book" lopsided none false none
  exact ⟨by decide +kernel, by decide +kernel, hwidth, h.diagnosing hwidth, h.tracing hwidth⟩

end Daybook.Guarded
