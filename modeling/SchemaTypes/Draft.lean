import SchemaTypes.Pointer
import SchemaTypes.Schema.Basic
import SchemaTypes.TypeExpr.Basic

/-!
Drafts: results that are drawn up under a list of names already taken, and that bring declarations of
their own, warnings, and possibly a refusal. Declarations come in the order of their naming and the
names they take are exactly theirs, so taken names need no state of their own. Warnings given before
a refusal are kept. Places are relative to the schema at hand and `within` extends them.
-/

namespace SchemaTypes

structure Malformed where
  pointer : Pointer
  fault : Fault
  deriving DecidableEq, Repr

def Malformed.message (malformed : Malformed) : String :=
  "malformed schema at " ++ malformed.pointer.text ++ ": " ++ malformed.fault.reason

/-- What a draft comes to; `warnings` point at values that are no schemas in places for schemas. -/
structure Drafted (Content : Type) where
  warnings : List Pointer
  outcome : Except Malformed (Content × List Declaration)

def Draft (Content : Type) := List String → Drafted Content

namespace Draft

variable {Content Other : Type}

def done (content : Content) : Draft Content := fun _ =>
  ⟨[], .ok (content, [])⟩

def andThen (draft : Draft Content) (next : Content → Draft Other) : Draft Other := fun taken =>
  let first := draft taken
  match first.outcome with
  | .error malformed => ⟨first.warnings, .error malformed⟩
  | .ok (content, declared) =>
    let second := next content (taken ++ declared.map Declaration.name)
    ⟨first.warnings ++ second.warnings,
      second.outcome.map fun result => (result.1, declared ++ result.2)⟩

def change (make : Content → Other) (draft : Draft Content) : Draft Other := fun taken =>
  let drafted := draft taken
  ⟨drafted.warnings, drafted.outcome.map fun result => (make result.1, result.2)⟩

instance : Monad Draft where
  pure := done
  bind := andThen
  map := change

def refuse (fault : Fault) : Draft Content := fun _ =>
  ⟨[], .error ⟨[fault.keyword], fault⟩⟩

def warn : Draft Unit := fun _ =>
  ⟨[[]], .ok ((), [])⟩

def within (tokens : Pointer) (draft : Draft Content) : Draft Content := fun taken =>
  let drafted := draft taken
  ⟨drafted.warnings.map (tokens ++ ·),
    drafted.outcome.mapError fun malformed => { malformed with pointer := tokens ++ malformed.pointer }⟩

/-- The content of a keyword, or what its absence stands for. -/
def ofKeyword (default : Content) : Keyword Content → Draft Content
  | .absent => done default
  | .malformed fault => refuse fault
  | .given content => done content

end Draft

end SchemaTypes
