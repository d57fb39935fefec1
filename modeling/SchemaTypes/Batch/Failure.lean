import SchemaTypes.Draft
import SchemaTypes.Files.Fault
import SchemaTypes.Files.Pattern
import SchemaTypes.Settings.Environment

namespace SchemaTypes

inductive Failure where
  | missingVariable (absent : MissingVariable)
  | missingTitle (collection : String)
  | malformed (collection : String) (malformed : Malformed)
  | unsafeTitle (title : String)
  | connection (reason : String)
  | file (path : String) (fault : FileFault)
  | unreadable (path reason : String)
  | badPattern (fault : PatternFault)
  | noMatch (pattern : String)
  deriving DecidableEq, Repr

/-- From the outermost message to the first cause. -/
def Failure.messages : Failure → List String
  | missingVariable absent => ["missing required environment variable `" ++ absent.name ++ "`"]
  | missingTitle collection =>
    ["schema for `" ++ collection ++ "` has no `title`; it names the generated file"]
  | malformed collection cause =>
    ["failed to compile schema for `" ++ collection ++ "`", cause.message]
  | unsafeTitle title => ["schema title `" ++ title ++ "` is not a plain file name"]
  | connection reason => ["mongodb: " ++ reason, reason]
  | file path fault => [path ++ ": " ++ fault.message, fault.message]
  | unreadable path reason => ["failed to parse JSON source file (" ++ path ++ "): " ++ reason]
  | badPattern fault => ["invalid glob pattern: " ++ fault.message, fault.message]
  | noMatch pattern => ["glob pattern matched no files: " ++ pattern]

def Failure.message (failure : Failure) : String :=
  String.intercalate ": " failure.messages

end SchemaTypes
