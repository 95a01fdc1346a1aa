namespace Bindlang.Command

structure Style where
  colored : Bool
  deriving DecidableEq, Repr

namespace Style

def paint (style : Style) (codes text : String) : String :=
  if style.colored then "\x1b[" ++ codes ++ "m" ++ text ++ "\x1b[0m" else text

def bold (style : Style) (text : String) : String := style.paint "1" text

def dimmed (style : Style) (text : String) : String := style.paint "2" text

def cyan (style : Style) (text : String) : String := style.paint "36" text

def boldRed (style : Style) (text : String) : String := style.paint "1;31" text

def boldGreen (style : Style) (text : String) : String := style.paint "1;32" text

end Style

def blanks (n : Nat) : String :=
  .ofList (List.replicate n ' ')

def padLeft (width : Nat) (text : String) : String :=
  blanks (width - text.length) ++ text

def padRight (width : Nat) (text : String) : String :=
  text ++ blanks (width - text.length)

end Bindlang.Command
