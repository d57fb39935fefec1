import SchemaTypes.Source.TypeText

namespace SchemaTypes

def enumMemberText (member : String × Json) : String :=
  "  " ++ memberKey member.1 ++ " = " ++ member.2.text

def enumBody (members : List (String × Json)) : String :=
  if members.isEmpty then "" else String.intercalate ",\n" (members.map enumMemberText) ++ "\n"

def Declaration.render (flags : Flags) : Declaration → String
  | interface name docs fields index =>
    docBlock 0 docs ++ "export interface " ++ name ++ " " ++
      (TypeExpr.object fields index).render flags 0 ++ "\n"
  | .typeAlias name docs type =>
    docBlock 0 docs ++ "export type " ++ name ++ " = " ++ type.render flags 0 ++ ";\n"
  | enumeration name docs members =>
    docBlock 0 docs ++ "export " ++ (if flags.constEnums then "const enum " else "enum ") ++ name ++
      " \x7b\n" ++ enumBody members ++ "\x7d\n"

def declarationsText (flags : Flags) (declarations : List Declaration) : String :=
  String.intercalate "\n" (declarations.map (Declaration.render flags))

def bannerText (banner : String) : String :=
  if banner.isEmpty then "" else banner ++ "\n\n"

def moduleText (banner : String) (flags : Flags) (declarations : List Declaration) : String :=
  bannerText banner ++ declarationsText flags declarations

end SchemaTypes
