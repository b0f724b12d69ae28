import DocumentMapper.Text.Basic

/-
  The environment variables that the library reads.

  Key definitions include:
    * `Environment`
    * `Environment.ofVariables`
    * `Environment.value?`
-/

namespace DocumentMapper

/-
  The variables, each set or not; a variable may be set to the
  empty text.
-/
structure Environment where
  home? : Option Text := none
  configHome? : Option Text := none
  configFile? : Option Text := none
  scope? : Option Text := none
  collection? : Option Text := none
  logLevel? : Option Text := none
  deriving DecidableEq, Repr

/- The environment with the given variables; a zero byte ends a value. -/
def Environment.ofVariables
    (lookup? : Text → Option Text) : Environment :=
  let get? (name : String) : Option Text :=
    (lookup? (Text.lit name)).map Text.beforeZero
  { home? := get? "HOME"
    configHome? := get? "XDG_CONFIG_HOME"
    configFile? := get? "DOCBIND_CONFIG"
    scope? := get? "DOCBIND_SCOPE"
    collection? := get? "DOCBIND_COLLECTION"
    logLevel? := get? "DOCBIND_LOG_LEVEL" }

/- The value of a variable that counts only if it is not empty. -/
def Environment.value?
    (text? : Option Text) : Option Text :=
  text?.filter fun value => value ≠ []

end DocumentMapper
