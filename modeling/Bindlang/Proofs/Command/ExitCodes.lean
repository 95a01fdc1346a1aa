import Bindlang.Command
import Bindlang.Proofs.Data.Except
import Mathlib.Control.Monad.Basic

namespace Bindlang.Command

variable {α β ε ε' : Type} {files : Files} {style : Style} {options : Options} {text : String}
  {failure : Failure} {config data context : Option String} {primary extra : Option Json}
  {noColor : Bool} {action : Action} {invocation : Invocation} {cause : SyntaxError}

/-- No failure in this is one of a binding string. -/
def BlamesInput (result : Except Failure α) : Prop :=
  ∀ failure, result = .error failure → failure.code = 2

namespace BlamesInput

theorem ok (a : α) : BlamesInput (.ok a) :=
  nofun

theorem error (isInput : failure.code = 2) : BlamesInput (.error failure : Except Failure α) := by
  rintro _ ⟨⟩
  exact isInput

theorem mapError {f : ε → Failure} (each : ∀ cause, (f cause).code = 2) (result : Except ε α) :
    BlamesInput (result.mapError f) := by
  cases result with
  | ok a => exact ok a
  | error cause => exact error (each cause)

theorem bind {result : Except Failure α} {next : α → Except Failure β} (first : BlamesInput result)
    (others : ∀ a, BlamesInput (next a)) : BlamesInput (result >>= next) := by
  intro failure failed
  rcases Except.bind_eq_error_iff.1 failed with failed | ⟨a, _, failed⟩
  · exact first failure failed
  · exact others a failure failed

end BlamesInput

/-- All that was read is printed, or the error in it is the failure. -/
def Judges (result : Except SyntaxError α) (report : Except Failure Report) : Prop :=
  Corresponds .binding (fun _ report => ∃ stdout, report = success stdout) result report

theorem Judges.of_map {result : Except SyntaxError α} {f : α → β} {report : Except Failure Report}
    (judges : Judges (result.map f) report) : Judges result report := by
  cases result with
  | error cause =>
    cases judges
    exact .error cause
  | ok a =>
    cases judges with
    | ok prints => exact .ok prints

section Loaded

variable (loaded : loadOptions files config = .ok options)
include loaded

end Loaded

end Bindlang.Command
