import DocumentMapper.Text.Basic

/-
  Log levels.

  Key definitions include:
    * `LogLevel`
    * `LogLevel.ofName?`
    * `LogLevel.severity`
-/

namespace DocumentMapper

/- How much is logged. -/
inductive LogLevel where
  | trace
  | debug
  | info
  | warn
  | error
  | off
  deriving DecidableEq, Repr, Inhabited

namespace LogLevel

/- All levels. -/
def all : List LogLevel :=
  [.trace, .debug, .info, .warn, .error, .off]

/- The name of a level. -/
def name : LogLevel → Text
  | .trace => Text.lit "trace"
  | .debug => Text.lit "debug"
  | .info => Text.lit "info"
  | .warn => Text.lit "warn"
  | .error => Text.lit "error"
  | .off => Text.lit "off"

/- The level with a name; names are case-sensitive. -/
def ofName?
    (s : Text) : Option LogLevel :=
  all.find? fun level => level.name = s

/-
  The rank of a level; between `error` and `off` one rank is
  not used.
-/
def severity : LogLevel → Nat
  | .trace => 0
  | .debug => 1
  | .info => 2
  | .warn => 3
  | .error => 4
  | .off => 6

end LogLevel

end DocumentMapper
