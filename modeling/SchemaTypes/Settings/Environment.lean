import SchemaTypes.Settings.Config

namespace SchemaTypes

def isWhiteSpace (char : Char) : Bool :=
  let code := char.toNat
  (9 ≤ code && code ≤ 13) || code = 0x20 || code = 0x85 || code = 0xA0 || code = 0x1680 ||
    (0x2000 ≤ code && code ≤ 0x200A) || code = 0x2028 || code = 0x2029 || code = 0x202F ||
    code = 0x205F || code = 0x3000

structure Connection where
  uri : String
  database : String
  deriving DecidableEq, Repr

/-- A variable that is unset or blank. -/
structure MissingVariable where
  name : String
  deriving DecidableEq, Repr

def readVariable (environment : String → Option String) (name : String) :
    Except MissingVariable String :=
  match environment name with
  | some value => if value.toList.all isWhiteSpace then .error ⟨name⟩ else .ok value
  | none => .error ⟨name⟩

def EnvNames.resolve (names : EnvNames) (environment : String → Option String) :
    Except MissingVariable Connection := do
  let uri ← readVariable environment names.uri
  let database ← readVariable environment names.database
  pure ⟨uri, database⟩

end SchemaTypes
