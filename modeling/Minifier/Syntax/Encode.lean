import Minifier.Json.Basic
import Minifier.Syntax

/-!
# Trees as JSON

A node is an object with its span under `loc` and its content under `stx`. The content of an
expression or a statement is tagged with the name of its form and is a node itself, which holds the
inner span. All fields are written, those that are absent as null.

How numbers are written is a parameter; `Double.toJson` is the usual way.
-/

namespace Minifier

/-- A span is the pair of its ends. -/
def Span.toJson (s : Span) : Json :=
  .arr [.int s.start.toNat, .int s.stop.toNat]

/-- A number, or its name if it is not finite. -/
def Double.toJson (v : Double) : Json :=
  if v.isFinite then .float v else .str v.text

/-- A node with a span and a content. -/
def nodeJson (span : Span) (content : Json) : Json :=
  .obj [("loc", span.toJson), ("stx", content)]

/-- A node whose content is a tagged node. -/
def formJson (pl : Place) (tag : String) (fields : List (String × Json)) : Json :=
  nodeJson pl.outer (.obj [("$t", .str tag), ("loc", pl.inner.toJson), ("stx", .obj fields)])

/-- A text that may be absent. -/
def textOptionJson : Option String → Json
  | none => .null
  | some text => .str text

/-- The name of a way to declare. -/
def DeclMode.toJson : DeclMode → Json
  | .const => .str "Const"
  | .block => .str "Let"
  | .var => .str "Var"

/-- A parameter. -/
def Param.toJson (p : Param) : Json :=
  nodeJson p.span (.obj [("name", .str p.name)])

section

variable (number : Double → Json)

mutual

/-- An expression. -/
def Expr.toJson : Expr → Json
  | .binary pl op left right => formJson pl "Binary"
    [("operator", .str op.name), ("left", left.toJson), ("right", right.toJson)]
  | .call pl isNew callee args => formJson pl "Call"
    [("construct", .bool isNew), ("callee", callee.toJson), ("arguments", .arr (exprsJson args))]
  | .index pl object key => formJson pl "ComputedMember"
    [("object", object.toJson), ("member", key.toJson)]
  | .cond pl test yes no => formJson pl "Cond"
    [("test", test.toJson), ("consequent", yes.toJson), ("alternate", no.toJson)]
  | .func pl name fn => formJson pl "Func" [("name", textOptionJson name), ("func", fn.toJson)]
  | .ident pl name => formJson pl "Id" [("name", .str name)]
  | .member pl object name => formJson pl "Member"
    [("left", object.toJson), ("right", .str name)]
  | .this pl => formJson pl "This" []
  | .unary pl op arg => formJson pl "Unary"
    [("operator", .str op.name), ("argument", arg.toJson)]
  | .update pl op arg => formJson pl "UnaryPostfix"
    [("operator", .str op.name), ("argument", arg.toJson)]
  | .array pl elements => formJson pl "LitArr" [("elements", .arr (elementsJson elements))]
  | .bool pl value => formJson pl "LitBool" [("value", .bool value)]
  | .null pl => formJson pl "LitNull" []
  | .num pl value => formJson pl "LitNum" [("value", number value)]
  | .object pl members => formJson pl "LitObj" [("members", .arr (membersJson members))]
  | .regex pl text => formJson pl "LitRegex" [("value", .str text)]
  | .str pl value => formJson pl "LitStr" [("value", .str value)]
  | .undef pl => formJson pl "LitUndefined" []

/-- A list of expressions. -/
def exprsJson : List Expr → List Json
  | [] => []
  | e :: rest => e.toJson :: exprsJson rest

/-- An expression that may be absent. -/
def exprOptionJson : Option Expr → Json
  | none => .null
  | some e => e.toJson

/-- The elements of an array literal. -/
def elementsJson : List (Option Expr) → List Json
  | [] => []
  | none :: rest => .str "Empty" :: elementsJson rest
  | some e :: rest => .obj [("Single", e.toJson)] :: elementsJson rest

/-- A function. -/
def Func.toJson : Func → Json
  | .mk span params body => nodeJson span
    (.obj [("parameters", .arr (params.map Param.toJson)), ("body", .arr (stmtsJson body))])

/-- The members of an object literal. -/
def membersJson : List Member → List Json
  | [] => []
  | .value span key e :: rest =>
    nodeJson span (.obj [("key", .str key), ("value", .obj [("Prop", e.toJson)])]) ::
      membersJson rest
  | .getter span key fn :: rest =>
    nodeJson span (.obj [("key", .str key), ("value", .obj [("Getter", fn.toJson)])]) ::
      membersJson rest
  | .setter span key fn :: rest =>
    nodeJson span (.obj [("key", .str key), ("value", .obj [("Setter", fn.toJson)])]) ::
      membersJson rest

/-- Declared names. -/
def declaratorsJson : List Declarator → List Json
  | [] => []
  | .mk name init :: rest =>
    .obj [("name", .str name), ("initializer", exprOptionJson init)] :: declaratorsJson rest

/-- The fields of a declaration. -/
def VarDecl.fieldsJson : VarDecl → List (String × Json)
  | .mk _ mode declarators =>
    [("mode", mode.toJson), ("declarators", .arr (declaratorsJson declarators))]

/-- The branches of a `switch`. -/
def branchesJson : List Branch → List Json
  | [] => []
  | .mk span test body :: rest =>
    nodeJson span (.obj [("case", exprOptionJson test), ("body", .arr (stmtsJson body))]) ::
      branchesJson rest

/-- A block of a `try` statement. -/
def Block.toJson : Block → Json
  | .mk span body => nodeJson span (.obj [("body", .arr (stmtsJson body))])

/-- The target of a loop over the keys of an object. -/
def LoopHead.targetJson : LoopHead → Json
  | .decl decl => .obj [("Decl", nodeJson decl.span (.obj decl.fieldsJson))]
  | .expr e => .obj [("Assign", e.toJson)]

/-- What a counting loop starts from. -/
def loopInitJson : Option LoopHead → Json
  | none => .str "None"
  | some (.expr e) => .obj [("Expr", e.toJson)]
  | some (.decl decl) => .obj [("Decl", nodeJson decl.span (.obj decl.fieldsJson))]

/-- The `catch` part of a `try` statement. -/
def handlerJson : Option Handler → Json
  | none => .null
  | some (.mk span param body) =>
    nodeJson span (.obj [("parameter", textOptionJson param), ("body", .arr (stmtsJson body))])

/-- The `finally` part of a `try` statement. -/
def finalJson : Option Block → Json
  | none => .null
  | some block => block.toJson

/-- A statement. -/
def Stmt.toJson : Stmt → Json
  | .block pl body => formJson pl "Block" [("body", .arr (stmtsJson body))]
  | .breakTo pl label => formJson pl "Break" [("label", textOptionJson label)]
  | .continueTo pl label => formJson pl "Continue" [("label", textOptionJson label)]
  | .debugger pl => formJson pl "Debugger" []
  | .doWhile pl body test => formJson pl "DoWhile"
    [("condition", test.toJson), ("body", body.toJson)]
  | .empty pl => formJson pl "Empty" []
  | .expr pl e => formJson pl "Expr" [("expr", e.toJson)]
  | .forIn pl target object body => formJson pl "ForIn"
    [("lhs", target.targetJson), ("rhs", object.toJson), ("body", body.toJson)]
  | .forLoop pl init test step body => formJson pl "ForTriple"
    [("init", loopInitJson init), ("cond", exprOptionJson test), ("post", exprOptionJson step),
      ("body", body.toJson)]
  | .func pl name fn => formJson pl "FunctionDecl"
    [("name", .str name), ("function", fn.toJson)]
  | .ite pl test yes none => formJson pl "If"
    [("test", test.toJson), ("consequent", yes.toJson), ("alternate", .null)]
  | .ite pl test yes (some no) => formJson pl "If"
    [("test", test.toJson), ("consequent", yes.toJson), ("alternate", no.toJson)]
  | .label pl name body => formJson pl "Label" [("name", .str name), ("statement", body.toJson)]
  | .ret pl value => formJson pl "Return" [("value", exprOptionJson value)]
  | .switch pl subject branches => formJson pl "Switch"
    [("test", subject.toJson), ("branches", .arr (branchesJson branches))]
  | .throw pl value => formJson pl "Throw" [("value", value.toJson)]
  | .tryCatch pl body handler final => formJson pl "Try"
    [("wrapped", body.toJson), ("catch", handlerJson handler), ("finally", finalJson final)]
  | .var outer decl => formJson ⟨outer, decl.span⟩ "VarDecl" decl.fieldsJson
  | .whileLoop pl test body => formJson pl "While"
    [("condition", test.toJson), ("body", body.toJson)]
  | .withObject pl object body => formJson pl "With"
    [("object", object.toJson), ("body", body.toJson)]

/-- A list of statements. -/
def stmtsJson : List Stmt → List Json
  | [] => []
  | s :: rest => s.toJson :: stmtsJson rest

end

/-- A program. -/
def Program.toJson (p : Program) : Json :=
  nodeJson p.span (.obj [("body", .arr (stmtsJson number p.body))])

end

end Minifier
