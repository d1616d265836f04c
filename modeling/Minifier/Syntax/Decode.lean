import Minifier.Json.Record
import Minifier.Syntax

/-!
# Trees from JSON

The readers of spans, numbers, expressions, statements and programs. A tagged object is taken in
whole before its content is looked at, so inside it faults of the text come before faults of the
content. Outside of tagged objects a program is read straight from the draft of its text.

Trees are read with a bound on their nesting, which is the bound on the nesting of their texts.
-/

namespace Minifier

open Json

/-- The two ends of a span. -/
def Span.record {V : Type} (offset : V → Decoded UInt64) : Record V Span :=
  Span.mk <$> .required "0" offset <*> .required "1" offset

/-- Decodes a span. -/
def Span.ofJson : Json → Decoded Span :=
  (Span.record toOffset).ofJson (.tuple "Loc")

/-- Decodes a span straight from a draft. -/
def Span.ofDraft : Draft → Decoded Span :=
  (Span.record (ofPeek toOffset)).ofDraft (.tuple "Loc")

/-- Decodes a number, or the name of one that is not finite. -/
def Double.ofJson : Json → Decoded Double
  | .int value => .ok (.ofInt value)
  | .float value => .ok value
  | .str "NaN" => .ok .nan
  | .str "Infinity" => .ok (.infinite false)
  | .str "-Infinity" => .ok (.infinite true)
  | .str other => .error (.numberLiteral other)
  | _ => .error .notNumber

/-- Decodes a number straight from a draft, which is taken in whole. -/
def Double.ofDraft : Draft → Decoded Double :=
  ofSettled Double.ofJson Draft.nestLimit

/-- Decodes a node: its span, by default the empty one, and its content. -/
def nodeOf {α : Type} (f : Json → Decoded α) : Json → Decoded (Span × α) :=
  (Prod.mk <$> Record.defaulted "loc" default Span.ofJson <*> Record.required "stx" f).ofJson
    (.record "Node")

/-- Decodes a node straight from a draft. -/
def nodeOfDraft {α : Type} (f : Draft → Decoded α) : Draft → Decoded (Span × α) :=
  (Prod.mk <$> Record.defaulted "loc" default Span.ofDraft <*> Record.required "stx" f).ofDraft
    (.record "Node")

/-- Decodes a choice that has no content. -/
def toName {α : Type} (names : List String) (values : List α) (value : Json) : Decoded α := do
  let (index, rest) ← toChoice names value
  noContent rest
  pick names values index

/-- Decodes the name of an operator. -/
def Operator.ofJson : Json → Decoded Operator :=
  toName (Operator.all.map Operator.name) Operator.all

/-- Decodes the name of an operator straight from a draft. -/
def Operator.ofDraft : Draft → Decoded Operator :=
  nameOfDraft (Operator.all.map Operator.name) Operator.all

/-- Decodes the name of a way to declare. -/
def DeclMode.ofJson : Json → Decoded DeclMode :=
  toName ["Const", "Let", "Var"] [.const, .block, .var]

/-- A field that holds a text. -/
def textField (name : String) : Record Json String :=
  .required name toText

/-- A field that may hold a text. -/
def textOptionField (name : String) : Record Json (Option String) :=
  .optional name (toOption toText)

/-- The readers of expressions and statements up to some depth. -/
structure Readers where
  expr : Json → Decoded Expr
  stmt : Json → Decoded Stmt

/-- A form of an expression or a statement: its tag, the name of its record, and the record. -/
structure Form (α : Type) where
  tag : String
  name : String
  record : Record Json (Place → α)

/-- The content of a node in one of the given forms, but for the outer span. -/
def ofForms {α : Type} (forms : List (Form α)) : Nat × Json → Decoded (Span → α)
  | (tag, content) =>
    match forms[tag]? with
    | none => .error (.unknownVariant "" (forms.map Form.tag))
    | some form => do
      let (inner, make) ← nodeOf (form.record.ofJson (.record form.name)) content
      return fun outer => make ⟨outer, inner⟩

/-- Decodes a node whose content is tagged with one of the given forms. -/
def ofTaggedNode {α : Type} (name : String) (forms : List (Form α)) (value : Json) :
    Decoded α := do
  let (outer, make) ← nodeOf
    (fun value => toTagged name (forms.map Form.tag) value >>= ofForms forms) value
  return make outer

/-- Decodes a node whose content is tagged straight from a draft in which `depth` lists and objects
may be nested. -/
def ofTaggedNodeDraft {α : Type} (name : String) (forms : List (Form α)) (depth : Nat)
    (draft : Draft) : Decoded α := do
  let (outer, make) ← nodeOfDraft
    (fun draft => taggedOfDraft name (forms.map Form.tag) (depth - 1) draft >>= ofForms forms) draft
  return make outer

namespace Readers

variable (r : Readers)

/-- A field that holds an expression. -/
def exprField (name : String) : Record Json Expr :=
  .required name r.expr

/-- A field that may hold an expression. -/
def exprOptionField (name : String) : Record Json (Option Expr) :=
  .optional name (toOption r.expr)

/-- A field that holds a statement. -/
def stmtField (name : String) : Record Json Stmt :=
  .required name r.stmt

/-- A field that holds a list of statements. -/
def bodyField : Record Json (List Stmt) :=
  .required "body" (toList r.stmt)

/-- Decodes a parameter. -/
def param (value : Json) : Decoded Param := do
  let (span, name) ← nodeOf ((id <$> textField "name").ofJson (.record "ParamDecl")) value
  return ⟨span, name⟩

/-- Decodes a function. -/
def func (value : Json) : Decoded Func := do
  let record := Prod.mk <$> .required "parameters" (toList param) <*> r.bodyField
  let (span, params, body) ← nodeOf (record.ofJson (.record "Func")) value
  return .mk span params body

/-- Decodes an element of an array literal. -/
def element (value : Json) : Decoded (Option Expr) := do
  let (index, rest) ← toChoice ["Single", "Empty"] value
  match index with
  | 0 => content r.expr rest >>= fun e => return some e
  | _ => noContent rest >>= fun _ => return none

/-- Decodes the value of a member of an object literal. -/
def memberValue (value : Json) : Decoded (Span → String → Member) := do
  let (index, rest) ← toChoice ["Prop", "Getter", "Setter"] value
  match index with
  | 0 => content r.expr rest >>= fun e => return fun span key => .value span key e
  | 1 => content r.func rest >>= fun fn => return fun span key => .getter span key fn
  | _ => content r.func rest >>= fun fn => return fun span key => .setter span key fn

/-- Decodes a member of an object literal. -/
def member (value : Json) : Decoded Member := do
  let record := Prod.mk <$> textField "key" <*> .required "value" r.memberValue
  let (span, key, make) ← nodeOf (record.ofJson (.record "ObjMember")) value
  return make span key

/-- Decodes a declared name. -/
def declarator : Json → Decoded Declarator :=
  (Declarator.mk <$> textField "name" <*> r.exprOptionField "initializer").ofJson
    (.record "VarDeclarator")

/-- The fields of a declaration. -/
def declRecord : Record Json (Span → VarDecl) :=
  (fun mode declarators span => .mk span mode declarators) <$>
    .required "mode" DeclMode.ofJson <*> .required "declarators" (toList r.declarator)

/-- Decodes a declaration. -/
def decl (value : Json) : Decoded VarDecl := do
  let (span, make) ← nodeOf (r.declRecord.ofJson (.record "VarDecl")) value
  return make span

/-- Decodes the target of a loop over the keys of an object. -/
def loopTarget (value : Json) : Decoded LoopHead := do
  let (index, rest) ← toChoice ["Decl", "Assign"] value
  match index with
  | 0 => content r.decl rest >>= fun d => return .decl d
  | _ => content r.expr rest >>= fun e => return .expr e

/-- Decodes what a counting loop starts from. -/
def loopInit (value : Json) : Decoded (Option LoopHead) := do
  let (index, rest) ← toChoice ["None", "Expr", "Decl"] value
  match index with
  | 0 => noContent rest >>= fun _ => return none
  | 1 => content r.expr rest >>= fun e => return some (.expr e)
  | _ => content r.decl rest >>= fun d => return some (.decl d)

/-- Decodes a branch of a `switch`. -/
def branch (value : Json) : Decoded Branch := do
  let record := Prod.mk <$> r.exprOptionField "case" <*> r.bodyField
  let (span, test, body) ← nodeOf (record.ofJson (.record "SwitchBranch")) value
  return .mk span test body

/-- Decodes a block of a `try` statement. -/
def block (value : Json) : Decoded Block := do
  let (span, body) ← nodeOf ((id <$> r.bodyField).ofJson (.record "BlockStmt")) value
  return .mk span body

/-- Decodes the `catch` part of a `try` statement. -/
def handler (value : Json) : Decoded Handler := do
  let record := Prod.mk <$> textOptionField "parameter" <*> r.bodyField
  let (span, param, body) ← nodeOf (record.ofJson (.record "CatchBlock")) value
  return .mk span param body

/-- The forms of expressions. -/
def exprForms : List (Form Expr) := [
  ⟨"Binary", "BinaryExpr", (fun op left right pl => .binary pl op left right) <$>
    .required "operator" Operator.ofJson <*> r.exprField "left" <*> r.exprField "right"⟩,
  ⟨"Call", "CallExpr", (fun isNew callee args pl => .call pl isNew callee args) <$>
    .defaulted "construct" false toBool <*> r.exprField "callee" <*>
    .required "arguments" (toList r.expr)⟩,
  ⟨"ComputedMember", "ComputedMemberExpr", (fun object key pl => .index pl object key) <$>
    r.exprField "object" <*> r.exprField "member"⟩,
  ⟨"Cond", "CondExpr", (fun test yes no pl => .cond pl test yes no) <$>
    r.exprField "test" <*> r.exprField "consequent" <*> r.exprField "alternate"⟩,
  ⟨"Func", "FuncExpr", (fun name fn pl => .func pl name fn) <$>
    textOptionField "name" <*> .required "func" r.func⟩,
  ⟨"Id", "IdExpr", (fun name pl => .ident pl name) <$> textField "name"⟩,
  ⟨"Member", "MemberExpr", (fun object name pl => .member pl object name) <$>
    r.exprField "left" <*> textField "right"⟩,
  ⟨"This", "ThisExpr", .pure fun pl => .this pl⟩,
  ⟨"Unary", "UnaryExpr", (fun op arg pl => .unary pl op arg) <$>
    .required "operator" Operator.ofJson <*> r.exprField "argument"⟩,
  ⟨"UnaryPostfix", "UnaryPostfixExpr", (fun op arg pl => .update pl op arg) <$>
    .required "operator" Operator.ofJson <*> r.exprField "argument"⟩,
  ⟨"LitArr", "LitArrExpr", (fun elements pl => .array pl elements) <$>
    .required "elements" (toList r.element)⟩,
  ⟨"LitBool", "LitBoolExpr", (fun value pl => .bool pl value) <$> .required "value" toBool⟩,
  ⟨"LitNull", "LitNullExpr", .pure fun pl => .null pl⟩,
  ⟨"LitNum", "LitNumExpr", (fun value pl => .num pl value) <$> .required "value" Double.ofJson⟩,
  ⟨"LitObj", "LitObjExpr", (fun members pl => .object pl members) <$>
    .required "members" (toList r.member)⟩,
  ⟨"LitRegex", "LitRegexExpr", (fun text pl => .regex pl text) <$> textField "value"⟩,
  ⟨"LitStr", "LitStrExpr", (fun value pl => .str pl value) <$> textField "value"⟩,
  ⟨"LitUndefined", "LitUndefinedExpr", .pure fun pl => .undef pl⟩]

/-- The forms of statements. -/
def stmtForms : List (Form Stmt) := [
  ⟨"Block", "BlockStmt", (fun body pl => .block pl body) <$> r.bodyField⟩,
  ⟨"Break", "BreakStmt", (fun label pl => .breakTo pl label) <$> textOptionField "label"⟩,
  ⟨"Continue", "ContinueStmt", (fun label pl => .continueTo pl label) <$>
    textOptionField "label"⟩,
  ⟨"Debugger", "DebuggerStmt", .pure fun pl => .debugger pl⟩,
  ⟨"DoWhile", "DoWhileStmt", (fun test body pl => .doWhile pl body test) <$>
    r.exprField "condition" <*> r.stmtField "body"⟩,
  ⟨"Empty", "EmptyStmt", .pure fun pl => .empty pl⟩,
  ⟨"Expr", "ExprStmt", (fun e pl => .expr pl e) <$> r.exprField "expr"⟩,
  ⟨"ForIn", "ForInStmt", (fun target object body pl => .forIn pl target object body) <$>
    .required "lhs" r.loopTarget <*> r.exprField "rhs" <*> r.stmtField "body"⟩,
  ⟨"ForTriple", "ForTripleStmt",
    (fun init test step body pl => .forLoop pl init test step body) <$>
    .required "init" r.loopInit <*> r.exprOptionField "cond" <*> r.exprOptionField "post" <*>
    r.stmtField "body"⟩,
  ⟨"FunctionDecl", "FuncDecl", (fun name fn pl => .func pl name fn) <$>
    textField "name" <*> .required "function" r.func⟩,
  ⟨"If", "IfStmt", (fun test yes no pl => .ite pl test yes no) <$>
    r.exprField "test" <*> r.stmtField "consequent" <*>
    .optional "alternate" (toOption r.stmt)⟩,
  ⟨"Label", "LabelStmt", (fun name body pl => .label pl name body) <$>
    textField "name" <*> r.stmtField "statement"⟩,
  ⟨"Return", "ReturnStmt", (fun value pl => .ret pl value) <$> r.exprOptionField "value"⟩,
  ⟨"Switch", "SwitchStmt", (fun subject branches pl => .switch pl subject branches) <$>
    r.exprField "test" <*> .required "branches" (toList r.branch)⟩,
  ⟨"Throw", "ThrowStmt", (fun value pl => .throw pl value) <$> r.exprField "value"⟩,
  ⟨"Try", "TryStmt", (fun body handler final pl => .tryCatch pl body handler final) <$>
    .required "wrapped" r.block <*> .optional "catch" (toOption r.handler) <*>
    .optional "finally" (toOption r.block)⟩,
  ⟨"VarDecl", "VarDecl", (fun make pl => .var pl.outer (make pl.inner)) <$> r.declRecord⟩,
  ⟨"While", "WhileStmt", (fun test body pl => .whileLoop pl test body) <$>
    r.exprField "condition" <*> r.stmtField "body"⟩,
  ⟨"With", "WithStmt", (fun object body pl => .withObject pl object body) <$>
    r.exprField "object" <*> r.stmtField "body"⟩]

end Readers

/-- The readers of trees of at most the given depth. -/
def readers : Nat → Readers
  | 0 => ⟨fun _ => .error (.text .tooDeep), fun _ => .error (.text .tooDeep)⟩
  | depth + 1 =>
    let r := readers depth
    ⟨ofTaggedNode "Expr" r.exprForms, ofTaggedNode "Stmt" r.stmtForms⟩

/-- The readers of trees whose texts are nested as deeply as may be. -/
def deepest : Readers := readers Draft.nestLimit

/-- Decodes an expression straight from a draft in which `depth` lists and objects may be nested. -/
def Expr.ofDraft (depth : Nat) : Draft → Decoded Expr :=
  ofTaggedNodeDraft "Expr" deepest.exprForms depth

/-- Decodes a statement straight from a draft in which `depth` lists and objects may be nested. -/
def Stmt.ofDraft (depth : Nat) : Draft → Decoded Stmt :=
  ofTaggedNodeDraft "Stmt" deepest.stmtForms depth

/-- Decodes a program straight from a draft. -/
def Program.ofDraft (draft : Draft) : Decoded Program := do
  let body := listOfDraft (Stmt.ofDraft (Draft.nestLimit - 3))
  let record := id <$> Record.required "body" body
  let (span, body) ← nodeOfDraft (record.ofDraft (.record "TopLevel")) draft
  return ⟨span, body⟩

/-- Decodes the text of a program. -/
def Program.ofText : String → Decoded Program :=
  Json.ofText Program.ofDraft

end Minifier
