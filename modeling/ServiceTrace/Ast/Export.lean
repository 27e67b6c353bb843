import ServiceTrace.Ast.Basic
import ServiceTrace.Json.Basic

/-!
# `ServiceTrace.Ast.Export` — syntax trees as JSON

Every expression and statement is an object whose first member `_type` names its kind; its parts
follow under fixed names. Optional parts that are missing are left out.

## Contents
- **`Route.toJson`**, **`Routing.toJson`** — routes and routing calls.
- **`Expr.toJson`**, **`Stmt.toJson`** — syntax trees.
-/

namespace ServiceTrace

/-- A route as a record of a catalog. -/
def Route.toJson (r : Route) : Json :=
  .obj <|
    [("name", .str r.name), ("methods", .strings r.methods), ("route_pattern", .str r.pattern),
      ("module", .str r.module), ("func_name", .str r.function)] ++
    Json.optional "file" (r.file.map (.str ·.text)) ++
    Json.optional "lineno" (r.line.map .nat) ++
    Json.optional "project_path" (r.projectPath.map (.str ·.text))

/-- What is known about a routing call. -/
def Routing.toJson (r : Routing) : Json :=
  .obj <|
    [("method", .str r.method), ("chain", .str r.chain), ("pattern", .str r.pattern),
      ("endpoint", .str r.endpoint)] ++
    Json.optional "matched" (r.matched.map Route.toJson)

/-! ## Expressions -/

mutual

/-- An expression as an object. -/
def Expr.toJson : Expr → Json
  | .name id => .obj [("_type", .str "Name"), ("id", .str id)]
  | .attribute value attr =>
    .obj [("_type", .str "Attribute"), ("value", value.toJson), ("attr", .str attr)]
  | .call c => .obj (("_type", .str "Call") :: c.members)
  | .str value => .obj [("_type", .str "Str"), ("value", .str value)]
  | .constant text => .obj [("_type", .str "Constant"), ("value", .str text)]
  | .joined parts => .obj [("_type", .str "JoinedStr"), ("values", .arr (Expr.listToJson parts))]
  | .formatted value => .obj [("_type", .str "FormattedValue"), ("value", value.toJson)]
  | .binary left op right =>
    .obj [("_type", .str "BinOp"), ("left", left.toJson), ("op", .str op), ("right", right.toJson)]
  | .other kind children =>
    .obj [("_type", .str "Other"), ("kind", .str kind), ("children", .arr (Expr.listToJson children))]

/-- The members of a call. -/
def Call.members : Call → List (String × Json)
  | ⟨func, args, keywords, line, route⟩ =>
    [("func", func.toJson), ("args", .arr (Expr.listToJson args)),
      ("keywords", .arr (Keyword.listToJson keywords)), ("lineno", .nat line)] ++
    Json.optional "route" (route.map Routing.toJson)

/-- Expressions as objects. -/
def Expr.listToJson : List Expr → List Json
  | [] => []
  | e :: es => e.toJson :: Expr.listToJson es

/-- Keyword arguments as objects. -/
def Keyword.listToJson : List Keyword → List Json
  | [] => []
  | k :: ks => k.toJson :: Keyword.listToJson ks

/-- A keyword argument as an object. -/
def Keyword.toJson : Keyword → Json
  | ⟨name, value⟩ => .obj (Json.optional "arg" (name.map .str) ++ [("value", value.toJson)])

end

/-- Expressions as an array. -/
def Expr.arrayOf (es : List Expr) : Json :=
  .arr (Expr.listToJson es)

/-! ## Statements -/

/-- A name of an import statement as an object. -/
def ImportName.toJson (n : ImportName) : Json :=
  .obj (("name", .str n.name) :: Json.optional "alias" (n.asName.map .str))

mutual

/-- A statement as an object. -/
def Stmt.toJson : Stmt → Json
  | .expr value line =>
    .obj [("_type", .str "Expr"), ("value", value.toJson), ("lineno", .nat line)]
  | .assign targets op value line =>
    .obj <| [("_type", .str "Assign"), ("targets", Expr.arrayOf targets)] ++
      Json.optional "op" (op.map .str) ++ Json.optional "value" (value.map Expr.toJson) ++
      [("lineno", .nat line)]
  | .cond test body orelse line =>
    .obj [("_type", .str "If"), ("test", test.toJson), ("body", .arr (Stmt.listToJson body)),
      ("orelse", .arr (Stmt.listToJson orelse)), ("lineno", .nat line)]
  | .forLoop target iter body orelse isAsync line =>
    .obj [("_type", .str "For"), ("target", target.toJson), ("iter", iter.toJson),
      ("body", .arr (Stmt.listToJson body)), ("orelse", .arr (Stmt.listToJson orelse)),
      ("is_async", .bool isAsync), ("lineno", .nat line)]
  | .whileLoop test body orelse line =>
    .obj [("_type", .str "While"), ("test", test.toJson), ("body", .arr (Stmt.listToJson body)),
      ("orelse", .arr (Stmt.listToJson orelse)), ("lineno", .nat line)]
  | .withBlock items body isAsync line =>
    .obj [("_type", .str "With"), ("items", Expr.arrayOf items),
      ("body", .arr (Stmt.listToJson body)), ("is_async", .bool isAsync), ("lineno", .nat line)]
  | .tryBlock body handlers orelse finalbody line =>
    .obj [("_type", .str "Try"), ("body", .arr (Stmt.listToJson body)),
      ("handlers", .arr (Handler.listToJson handlers)), ("orelse", .arr (Stmt.listToJson orelse)),
      ("finalbody", .arr (Stmt.listToJson finalbody)), ("lineno", .nat line)]
  | .matchBlock subject cases line =>
    .obj [("_type", .str "Match"), ("subject", Expr.arrayOf subject),
      ("cases", .arr (MatchCase.listToJson cases)), ("lineno", .nat line)]
  | .function d => .obj (("_type", .str "FunctionDef") :: d.members)
  | .classDef d => .obj (("_type", .str "ClassDef") :: d.members)
  | .ret value line =>
    .obj <| ("_type", .str "Return") :: Json.optional "value" (value.map Expr.toJson) ++
      [("lineno", .nat line)]
  | .raise exprs line =>
    .obj [("_type", .str "Raise"), ("exprs", Expr.arrayOf exprs), ("lineno", .nat line)]
  | .delete targets line =>
    .obj [("_type", .str "Delete"), ("targets", Expr.arrayOf targets), ("lineno", .nat line)]
  | .pass line => .obj [("_type", .str "Pass"), ("lineno", .nat line)]
  | .breakLoop line => .obj [("_type", .str "Break"), ("lineno", .nat line)]
  | .continueLoop line => .obj [("_type", .str "Continue"), ("lineno", .nat line)]
  | .imports names line =>
    .obj [("_type", .str "Import"), ("names", .arr (names.map ImportName.toJson)),
      ("lineno", .nat line)]
  | .importFrom module names wildcard line =>
    .obj [("_type", .str "ImportFrom"), ("module", .str module),
      ("names", .arr (names.map ImportName.toJson)), ("wildcard", .bool wildcard),
      ("lineno", .nat line)]
  | .other kind exprs line =>
    .obj [("_type", .str "Other"), ("kind", .str kind), ("exprs", Expr.arrayOf exprs),
      ("lineno", .nat line)]

/-- The members of a function definition. -/
def FunctionDef.members : FunctionDef → List (String × Json)
  | ⟨name, params, decorators, body, isAsync, line⟩ =>
    [("name", .str name), ("params", .strings params), ("decorators", Expr.arrayOf decorators),
      ("body", .arr (Stmt.listToJson body)), ("is_async", .bool isAsync), ("lineno", .nat line)]

/-- The members of a class definition. -/
def ClassDef.members : ClassDef → List (String × Json)
  | ⟨name, bases, decorators, body, line⟩ =>
    [("name", .str name), ("bases", Expr.arrayOf bases), ("decorators", Expr.arrayOf decorators),
      ("body", .arr (Stmt.listToJson body)), ("lineno", .nat line)]

/-- Statements as objects. -/
def Stmt.listToJson : List Stmt → List Json
  | [] => []
  | s :: ss => s.toJson :: Stmt.listToJson ss

/-- `except` clauses as objects. -/
def Handler.listToJson : List Handler → List Json
  | [] => []
  | h :: hs => h.toJson :: Handler.listToJson hs

/-- An `except` clause as an object. -/
def Handler.toJson : Handler → Json
  | ⟨types, body, line⟩ =>
    .obj [("types", Expr.arrayOf types), ("body", .arr (Stmt.listToJson body)),
      ("lineno", .nat line)]

/-- `case` clauses as objects. -/
def MatchCase.listToJson : List MatchCase → List Json
  | [] => []
  | c :: cs => c.toJson :: MatchCase.listToJson cs

/-- A `case` clause as an object. -/
def MatchCase.toJson : MatchCase → Json
  | ⟨pattern, guard, body⟩ =>
    .obj <| ("pattern", .str pattern) :: Json.optional "guard" (guard.map Expr.toJson) ++
      [("body", .arr (Stmt.listToJson body))]

end

/-- A body as an array of statements. -/
def Stmt.arrayOf (body : List Stmt) : Json :=
  .arr (Stmt.listToJson body)

end ServiceTrace
