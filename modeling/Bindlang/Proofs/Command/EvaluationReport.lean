import Bindlang.Proofs.Accessor.DataReading
import Bindlang.Proofs.Accessor.WrappedBindings
import Bindlang.Proofs.Command.ExitCodes
import Bindlang.Proofs.Json.ValueConversion
import Bindlang.Proofs.Printer.AcceptedRoundTrip

namespace Bindlang

open Store

namespace Tree

end Tree

namespace Command

section Reports

variable (names : List String) (found : String → Option Tree)

end Reports

variable {style : Style} {files : Files} {options : Options} {text : String} {s : Store}
  {config data context : Option String} {primary extra : Option Json} {bindings : List Binding}
  {names : List String} {found : String → Option Tree} {rows : List (String × Option Value)}

section Printing

variable (shown : rows.map (fun row => (row.1, row.2.map s.tree)) =
  names.map fun name => (name, found name))
include shown

end Printing

section Evaluated

variable (style : Style) (noColor : Bool) (loaded : loadOptions files config = .ok options)
  (loadedData : loadOptional files data = .ok primary)
  (loadedContext : loadOptional files context = .ok extra)
  (accepted : options.bindings text = .ok bindings)
include loaded loadedData loadedContext accepted

end Evaluated

def reading (bindings : List Binding) (data : Data) (name : String) : Option Tree :=
  (Keyed.find? Binding.name name bindings).bind fun b => b.value.tree? data

end Command

end Bindlang
