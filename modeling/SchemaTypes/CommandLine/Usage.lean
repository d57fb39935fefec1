import SchemaTypes.CommandLine.Options

namespace SchemaTypes

def usageText : String :=
  String.intercalate "\n" [
    "generate TypeScript type definitions from MongoDB `$jsonSchema` validators",
    "",
    "Usage: bson-typegen [--log-level <LOG_LEVEL>] <COMMAND>",
    "",
    "Commands:",
    "  generate  read validators from every collection of the configured database",
    "  compile   read validators from local JSON files",
    "  help      print this message",
    "",
    "Options of both commands:",
    "  --config <CONFIG>            config file (defaults to ./bson-typegen.json)",
    "  --ignore-min-and-max-items   don't turn minItems/maxItems into tuple types",
    "  --strict-index-signatures    add `| undefined` to index signatures",
    "  --no-unknown-any             type untyped values as `any` instead of `unknown`",
    "  --no-const-enums             emit `enum` instead of `const enum`",
    "  --no-op                      only show the parsed command line",
    "",
    "Options of generate:",
    "  --path <PATH>                output directory",
    "",
    "Options of compile:",
    "  -i, --input <INPUT>...       literal paths or quoted glob patterns",
    "  --json-pointer <POINTER>     JSON Pointer to the schema in each document",
    "  -o, --out <OUT>              output directory (stdout if omitted)"]

namespace UsageStop

def message : UsageStop → String
  | help => usageText
  | version => "bson-typegen"
  | helpOnNothing => usageText
  | unknownArgument argument => "error: unexpected argument '" ++ argument ++ "' found"
  | unknownSubcommand name => "error: unrecognized subcommand '" ++ name ++ "'"
  | missingSubcommand => "error: a subcommand is required but one was not provided"
  | missingValue option => "error: a value is required for '--" ++ option ++ "'"
  | tooManyValues option => "error: no value is expected for '--" ++ option ++ "'"
  | repeatedOption option => "error: '--" ++ option ++ "' cannot be used multiple times"
  | missingOption option => "error: '--" ++ option ++ "' is required"

def exitCode : UsageStop → Nat
  | help => 0
  | version => 0
  | _ => 2

end UsageStop

end SchemaTypes
