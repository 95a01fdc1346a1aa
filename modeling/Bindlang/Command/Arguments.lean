namespace Bindlang.Command

inductive ActionName
  | tokens
  | ast
  | check
  | eval
  | pluck
  | version
  deriving DecidableEq, Repr

def ActionName.ofText? : String → Option ActionName
  | "tokens" => some .tokens
  | "ast" => some .ast
  | "check" => some .check
  | "eval" => some .eval
  | "pluck" => some .pluck
  | "version" => some .version
  | _ => none

inductive Switch
  | quiet
  | verbose
  | noColor
  | json
  | help
  | version
  deriving DecidableEq, Repr

inductive Setting
  | config
  | data
  | context
  deriving DecidableEq, Repr

def Switch.ofName? : String → Option Switch
  | "quiet" => some quiet
  | "verbose" => some verbose
  | "no-color" => some noColor
  | "json" => some json
  | "help" => some help
  | "version" => some version
  | _ => none

def Switch.ofLetter? : Char → Option Switch
  | 'q' => some quiet
  | 'v' => some verbose
  | 'h' => some help
  | 'V' => some version
  | _ => none

def Setting.ofName? : String → Option Setting
  | "config" => some config
  | "data" => some data
  | "context" => some context
  | _ => none

def Switch.allowed : Switch → Option ActionName → Bool
  | quiet, _ | verbose, _ | noColor, _ | help, _ => true
  | json, some .tokens | json, some .check | json, some .eval | json, some .pluck => true
  | json, _ => false
  | version, action => action.isNone

def Setting.allowed : Setting → Option ActionName → Bool
  | config, _ => true
  | data, some .eval | data, some .pluck => true
  | context, some .eval => true
  | _, _ => false

inductive Stop
  | usage
  | help
  | version
  deriving DecidableEq, Repr

/-- What is given before the action, or behind it, in reverse order. -/
structure Level where
  settings : List (Setting × String)
  switches : List Switch
  operand : Option String
  deriving DecidableEq, Repr

namespace Level

def empty : Level := ⟨[], [], none⟩

def setting? (level : Level) (s : Setting) : Option String :=
  level.settings.lookup s

/-- None may be given twice, and the name of a file may not be empty. -/
def addSetting (level : Level) (s : Setting) (value : String) : Except Stop Level :=
  if (level.setting? s).isSome ∨ (s = .config ∧ value = "") then .error .usage
  else .ok { level with settings := (s, value) :: level.settings }

def addSwitch (level : Level) (s : Switch) : Except Stop Level :=
  match s with
  | .help => .error .help
  | .version => .error .version
  | .verbose => .ok { level with switches := s :: level.switches }
  | _ =>
    if s ∈ level.switches then .error .usage
    else .ok { level with switches := s :: level.switches }

end Level

inductive Mode
  | any
  | value (setting : Setting)
  | operands
  | helpTopic
  | helpEnd
  deriving DecidableEq, Repr

structure Reading where
  outer : Level
  action : Option (ActionName × Level)
  mode : Mode
  deriving DecidableEq, Repr

namespace Reading

def start : Reading := ⟨.empty, none, .any⟩

def actionName? (r : Reading) : Option ActionName :=
  r.action.map Prod.fst

def level (r : Reading) : Level :=
  (r.action.map Prod.snd).getD r.outer

def withLevel (r : Reading) (level : Level) : Reading :=
  match r.action with
  | some (name, _) => { r with action := some (name, level) }
  | none => { r with outer := level }

def switch (r : Reading) (s : Option Switch) : Except Stop Reading :=
  match s with
  | none => .error .usage
  | some s =>
    if s.allowed r.actionName? then (r.level.addSwitch s).map r.withLevel else .error .usage

def giveSetting (r : Reading) (s : Setting) (value : String) : Except Stop Reading :=
  (r.level.addSetting s value).map fun level => { r.withLevel level with mode := .any }

def long (r : Reading) (name : String) (value : Option String) : Except Stop Reading :=
  match Setting.ofName? name, value with
  | some s, some value =>
    if s.allowed r.actionName? then r.giveSetting s value else .error .usage
  | some s, none =>
    if s.allowed r.actionName? then .ok { r with mode := .value s } else .error .usage
  | none, some _ => .error .usage
  | none, none => r.switch (Switch.ofName? name)

def plain (r : Reading) (text : String) : Except Stop Reading :=
  match r.action with
  | none =>
    if r.mode = .operands then .error .usage
    else if text = "help" then .ok { r with mode := .helpTopic }
    else
      match ActionName.ofText? text with
      | some name => .ok { r with action := some (name, .empty) }
      | none => .error .usage
  | some (name, level) =>
    if name = .version ∨ level.operand.isSome then .error .usage
    else .ok { r with action := some (name, { level with operand := some text }) }

def splitLong (text : List Char) : String × Option String :=
  match text.dropWhile (· != '=') with
  | [] => (.ofList text, none)
  | _ :: value => (.ofList (text.takeWhile (· != '=')), some (.ofList value))

def step (r : Reading) (argument : String) : Except Stop Reading :=
  match r.mode with
  | .helpTopic =>
    if argument = "help" ∨ (ActionName.ofText? argument).isSome then .ok { r with mode := .helpEnd }
    else .error .usage
  | .helpEnd => .error .usage
  | .operands => r.plain argument
  | .value s =>
    match argument.toList with
    | '-' :: _ :: _ => .error .usage
    | _ => r.giveSetting s argument
  | .any =>
    match argument.toList with
    | ['-', '-'] => .ok { r with mode := .operands }
    | '-' :: '-' :: text => r.long (splitLong text).1 (splitLong text).2
    | '-' :: letter :: letters =>
      (letter :: letters).foldlM (fun r letter => r.switch (Switch.ofLetter? letter)) r
    | _ => r.plain argument

end Reading

inductive Action
  | tokens (binding : String) (json : Bool)
  | ast (binding : String)
  | check (binding : String) (json quiet : Bool)
  | eval (binding : String) (data context : Option String) (json : Bool)
  | pluck (path : String) (data : Option String) (json : Bool)
  | version
  deriving DecidableEq, Repr

structure Invocation where
  config : Option String
  noColor : Bool
  action : Action
  deriving DecidableEq, Repr

def Reading.finish (r : Reading) : Except Stop Invocation :=
  match r.mode with
  | .value _ => .error .usage
  | .helpTopic | .helpEnd => .error .help
  | _ =>
    match r.action with
    | none => .error .usage
    | some (name, level) =>
      let has (s : Switch) : Bool := s ∈ level.switches ++ r.outer.switches
      let invocation (action : Action) : Invocation :=
        ⟨(level.setting? .config).or (r.outer.setting? .config), has .noColor, action⟩
      match name, level.operand with
      | .version, _ => .ok (invocation .version)
      | _, none => .error .usage
      | .tokens, some text => .ok (invocation (.tokens text (has .json)))
      | .ast, some text => .ok (invocation (.ast text))
      | .check, some text => .ok (invocation (.check text (has .json) (has .quiet)))
      | .eval, some text =>
        .ok (invocation
          (.eval text (level.setting? .data) (level.setting? .context) (has .json)))
      | .pluck, some text =>
        .ok (invocation (.pluck text (level.setting? .data) (has .json)))

def Invocation.read (arguments : List String) : Except Stop Invocation :=
  arguments.foldlM Reading.step Reading.start >>= Reading.finish

end Bindlang.Command
