import Daybook.CommandLine.Response
import Daybook.Yaml.Document

/-!
What the program answers.

The program loads the documents of configurations with the reader of `Daybook.Yaml`. Nothing else about it depends on
how they are loaded.
-/

namespace Daybook.CommandLine

/-- The loader of the program. -/
def loadYaml : Loader := fun name bytes =>
  match String.fromUTF8? bytes with
  | none => .error (.broken .undecodable)
  | some text =>
    (Yaml.read (Text.unifyLineEnds text.toList)).mapError fun
      | .flaw flaw => .refused (flaw.message name)
      | .impossibleScalar => .broken .impossibleScalar
      | .hugeCharacter => .broken .hugeCharacter

/-- What the program answers to arguments. -/
def Arguments.answer (read : Reader) (a : Arguments) : Except Breakdown Answer :=
  a.respond loadYaml read

end Daybook.CommandLine
