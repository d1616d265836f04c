import Minifier.Proofs.Json.Trees
import Minifier.Proofs.Nodes

/-!
# Trees that are read back

A tree can be read back from its text, and from all other texts that show it. The usual text of a tree is
one of these, so long as the numbers in it are read back from theirs. A number that is not finite is
written as its name and asks for nothing.
-/

namespace Minifier

open Json

/-- A number that stands in the tree is read back from its text. -/
def Expr.NumberReadsBack : Expr → Prop
  | .num _ value => value.isFinite = true → ReadsBack value
  | _ => True

/-- The trees whose numbers are read back from their texts. -/
def Check.numbersReadBack : Check where
  expr := Expr.NumberReadsBack
  stmt _ := True
  body _ := True

theorem readsBack_half : ReadsBack (.ofDecimal false ⟨5, -1⟩) := by
  have text : (Double.ofDecimal false ⟨5, -1⟩).json = "0.5" := by decide +kernel
  have read : Numeral.read false ['0', '.', '5'] = .ok (⟨false, ['0'], ['5'], none, false⟩, []) := by
    decide
  have size : Numeral.magnitude ⟨false, ['0'], ['5'], none, false⟩ =
      some (.ofDecimal false ⟨5, -1⟩) := by decide +kernel
  have value : Numeral.value ⟨false, ['0'], ['5'], none, false⟩ =
      .ok (.float (.ofDecimal false ⟨5, -1⟩)) := by
    simp only [Numeral.value, Bool.false_and, Bool.false_eq_true, if_false, size]
  rw [ReadsBack, text]
  change Draft.readNumber false ['0', '.', '5'] = _
  rw [Draft.readNumber, read]
  simp only [value]

/-! ## Usual values -/

/-- The value shows what it should, and it is read back from its text. -/
structure Presents (shows : Json → Prop) (j : Json) : Prop where
  shown : shows j
  readable : j.IsReadable

/-- An object presents the fields of a record in order. -/
def FieldsPresent (fields : List Field) (entries : List (String × Json)) : Prop :=
  List.Forall₂ (fun f entry => entry.1 = f.name ∧ Presents f.accepts entry.2) fields entries

section Presents

variable {shows : Json → Prop} {fields : List Field} {entries : List (String × Json)} {j : Json}

theorem FieldsPresent.readable (each : FieldsPresent fields entries) : fieldsReadable entries := by
  induction each with
  | nil => trivial
  | cons head _ ih => exact ⟨head.2.readable, ih⟩

/-- An object with all fields in order presents the record. -/
theorem FieldsPresent.record (each : FieldsPresent fields entries)
    (distinct : (fields.map Field.name).Nodup) : Presents (RecordShown fields) (.obj entries) :=
  ⟨.of_entries (each.imp fun _ _ both => ⟨both.1, both.2.shown⟩) distinct, each.readable⟩

/-- A list presents what its items present. -/
theorem presents_list {each : List (Json → Prop)} {values : List Json}
    (items : List.Forall₂ Presents each values) : Presents (listShows each) (.arr values) := by
  refine ⟨items.imp fun _ _ item => item.shown, ?_⟩
  induction items with
  | nil => trivial
  | cons head _ ih => exact ⟨head.readable, ih⟩

/-- A choice with a content is presented by its name and what presents the content. -/
theorem presents_choice (name : String) (content : Presents shows j) :
    Presents (choiceShows name shows) (.obj [(name, j)]) :=
  ⟨⟨rfl, content.shown⟩, content.readable, trivial⟩

theorem presents_str (text : String) : Presents (· = .str text) (.str text) :=
  ⟨rfl, trivial⟩

theorem presents_bool (value : Bool) : Presents (· = .bool value) (.bool value) :=
  ⟨rfl, trivial⟩

/-- The offsets of a span are small enough to be read back. -/
theorem presents_span (span : Span) : Presents (· = span.toJson) span.toJson := by
  have small (x : UInt64) : (Json.int x.toNat).IsReadable := by
    have bound := x.toNat_lt
    constructor <;> omega
  exact ⟨rfl, small span.start, small span.stop, trivial⟩

/-- A text that may be absent is presented by itself or by null. -/
theorem presents_textOption (text : Option String) :
    Presents (optionShows (text.map fun text => (· = .str text))) (textOptionJson text) := by
  cases text <;> exact ⟨rfl, trivial⟩

theorem presents_declMode (mode : DeclMode) : Presents (· = mode.toJson) mode.toJson := by
  cases mode <;> exact presents_str _

/-- A finite number is presented by its digits if it is read back from them, and any other by its name.
-/
theorem presents_double {value : Double} (reads : value.isFinite = true → ReadsBack value) :
    Presents (· = value.toJson) value.toJson := by
  refine ⟨rfl, ?_⟩
  unfold Double.toJson
  split
  · next finite => exact reads finite
  · trivial

/-- A node is presented by its span and what presents its content. -/
theorem presents_node (span : Span) (content : Presents shows j) :
    Presents (nodeShows span shows) (nodeJson span j) :=
  FieldsPresent.record (.cons ⟨rfl, presents_span span⟩ (.cons ⟨rfl, content⟩ .nil)) (by simp)

/-- A tagged node is presented by its tag, its span and its fields in order. -/
theorem presents_form {pl : Place} {tag : String} (each : FieldsPresent fields entries)
    (distinct : (fields.map Field.name).Nodup) :
    Presents (formShows pl tag fields) (formJson pl tag entries) := by
  have content : FieldsPresent [tagField tag, .loc pl.inner, .always "stx" (RecordShown fields)]
      [("$t", .str tag), ("loc", pl.inner.toJson), ("stx", .obj entries)] :=
    .cons ⟨rfl, presents_str tag⟩ (.cons ⟨rfl, presents_span _⟩ (.cons ⟨rfl, each.record distinct⟩ .nil))
  exact presents_node pl.outer (content.record (by simp [tagKey]))

/-- A parameter is presented by its usual value. -/
theorem presents_param (p : Param) : Presents p.Shows p.toJson :=
  presents_node p.span (FieldsPresent.record (.cons ⟨rfl, presents_str p.name⟩ .nil) (by simp))

theorem params_presents (params : List Param) :
    List.Forall₂ Presents (params.map Param.Shows) (params.map Param.toJson) := by
  rw [List.forall₂_map_left_iff, List.forall₂_map_right_iff, List.forall₂_same]
  exact fun p _ => presents_param p

/-- A member is presented by its key and what presents its value. -/
theorem presents_member {span : Span} {key : String} (value : Presents shows j) :
    Presents (nodeShows span (RecordShown [.text "key" key, .always "value" shows]))
      (nodeJson span (.obj [("key", .str key), ("value", j)])) :=
  presents_node span (FieldsPresent.record
    (.cons ⟨rfl, presents_str key⟩ (.cons ⟨rfl, value⟩ .nil)) (by simp))

/-- The fields of a declaration have different names. -/
theorem VarDecl.fields_distinct (decl : VarDecl) : (decl.fields.map Field.name).Nodup := by
  cases decl
  simp [VarDecl.fields]

end Presents

mutual

/-- The usual value of an expression presents it if its numbers are read back. -/
theorem Expr.presents_toJson : (e : Expr) → e.Meets .numbersReadBack →
    Presents e.Shows (e.toJson Double.toJson)
  | .binary _ op left right, ⟨_, inLeft, inRight⟩ =>
    presents_form (.cons ⟨rfl, presents_str op.name⟩ (.cons ⟨rfl, left.presents_toJson inLeft⟩
      (.cons ⟨rfl, right.presents_toJson inRight⟩ .nil))) (by simp)
  | .call _ isNew callee args, ⟨_, inCallee, inArgs⟩ =>
    presents_form (.cons ⟨rfl, presents_bool isNew⟩ (.cons ⟨rfl, callee.presents_toJson inCallee⟩
      (.cons ⟨rfl, presents_list (exprs_presents args inArgs)⟩ .nil))) (by simp)
  | .index _ object key, ⟨_, inObject, inKey⟩ =>
    presents_form (.cons ⟨rfl, object.presents_toJson inObject⟩
      (.cons ⟨rfl, key.presents_toJson inKey⟩ .nil)) (by simp)
  | .cond _ test yes no, ⟨_, inTest, inYes, inNo⟩ =>
    presents_form (.cons ⟨rfl, test.presents_toJson inTest⟩ (.cons ⟨rfl, yes.presents_toJson inYes⟩
      (.cons ⟨rfl, no.presents_toJson inNo⟩ .nil))) (by simp)
  | .func _ name fn, ⟨_, inside⟩ =>
    presents_form (.cons ⟨rfl, presents_textOption name⟩
      (.cons ⟨rfl, fn.presents_toJson inside⟩ .nil)) (by simp)
  | .ident _ name, _ => presents_form (.cons ⟨rfl, presents_str name⟩ .nil) (by simp)
  | .member _ object name, ⟨_, inside⟩ =>
    presents_form (.cons ⟨rfl, object.presents_toJson inside⟩
      (.cons ⟨rfl, presents_str name⟩ .nil)) (by simp)
  | .unary _ op arg, ⟨_, inside⟩ | .update _ op arg, ⟨_, inside⟩ =>
    presents_form (.cons ⟨rfl, presents_str op.name⟩
      (.cons ⟨rfl, arg.presents_toJson inside⟩ .nil)) (by simp)
  | .array _ elements, ⟨_, inside⟩ =>
    presents_form (.cons ⟨rfl, presents_list (elements_presents elements inside)⟩ .nil) (by simp)
  | .bool _ value, _ => presents_form (.cons ⟨rfl, presents_bool value⟩ .nil) (by simp)
  | .num _ _, here => presents_form (.cons ⟨rfl, presents_double here⟩ .nil) (by simp)
  | .object _ members, ⟨_, inside⟩ =>
    presents_form (.cons ⟨rfl, presents_list (members_presents members inside)⟩ .nil) (by simp)
  | .regex _ text, _ | .str _ text, _ => presents_form (.cons ⟨rfl, presents_str text⟩ .nil) (by simp)
  | .this _, _ | .null _, _ | .undef _, _ => presents_form .nil .nil

/-- The usual values of the expressions of a list present them. -/
theorem exprs_presents : (es : List Expr) → exprsMeet .numbersReadBack es →
    List.Forall₂ Presents (exprsShow es) (exprsJson Double.toJson es)
  | [], _ => .nil
  | e :: rest, ⟨head, tail⟩ => .cons (e.presents_toJson head) (exprs_presents rest tail)

theorem exprOption_presents : (e : Option Expr) → optionMeets .numbersReadBack e →
    Presents (optionShows (exprOptionShows e)) (exprOptionJson Double.toJson e)
  | none, _ => ⟨rfl, trivial⟩
  | some e, inside => e.presents_toJson inside

theorem elements_presents : (elements : List (Option Expr)) → elementsMeet .numbersReadBack elements →
    List.Forall₂ Presents (elementsShow elements) (elementsJson Double.toJson elements)
  | [], _ => .nil
  | none :: rest, ⟨_, tail⟩ => .cons (presents_str "Empty") (elements_presents rest tail)
  | some e :: rest, ⟨head, tail⟩ =>
    .cons (presents_choice "Single" (e.presents_toJson head)) (elements_presents rest tail)

/-- The usual value of a function presents it. -/
theorem Func.presents_toJson : (fn : Func) → fn.Meets .numbersReadBack →
    Presents fn.Shows (fn.toJson Double.toJson)
  | .mk span params body, ⟨_, inside⟩ =>
    presents_node span (FieldsPresent.record (.cons ⟨rfl, presents_list (params_presents params)⟩
      (.cons ⟨rfl, presents_list (stmts_presents body inside)⟩ .nil)) (by simp))

theorem members_presents : (members : List Member) → membersMeet .numbersReadBack members →
    List.Forall₂ Presents (membersShow members) (membersJson Double.toJson members)
  | [], _ => .nil
  | .value _ _ e :: rest, ⟨head, tail⟩ =>
    .cons (presents_member (presents_choice "Prop" (e.presents_toJson head)))
      (members_presents rest tail)
  | .getter _ _ fn :: rest, ⟨head, tail⟩ =>
    .cons (presents_member (presents_choice "Getter" (fn.presents_toJson head)))
      (members_presents rest tail)
  | .setter _ _ fn :: rest, ⟨head, tail⟩ =>
    .cons (presents_member (presents_choice "Setter" (fn.presents_toJson head)))
      (members_presents rest tail)

theorem declarators_presents : (ds : List Declarator) → declaratorsMeet .numbersReadBack ds →
    List.Forall₂ Presents (declaratorsShow ds) (declaratorsJson Double.toJson ds)
  | [], _ => .nil
  | .mk name init :: rest, ⟨head, tail⟩ =>
    .cons (FieldsPresent.record (.cons ⟨rfl, presents_str name⟩
      (.cons ⟨rfl, exprOption_presents init head⟩ .nil)) (by simp)) (declarators_presents rest tail)

/-- The usual fields of a declaration present it. -/
theorem VarDecl.fields_present : (decl : VarDecl) → decl.Meets .numbersReadBack →
    FieldsPresent decl.fields (decl.fieldsJson Double.toJson)
  | .mk _ mode declarators, inside =>
    .cons ⟨rfl, presents_declMode mode⟩
      (.cons ⟨rfl, presents_list (declarators_presents declarators inside)⟩ .nil)

theorem branches_presents : (branches : List Branch) → branchesMeet .numbersReadBack branches →
    List.Forall₂ Presents (branchesShow branches) (branchesJson Double.toJson branches)
  | [], _ => .nil
  | .mk span test body :: rest, ⟨inTest, ⟨_, inside⟩, tail⟩ =>
    .cons (presents_node span (FieldsPresent.record (.cons ⟨rfl, exprOption_presents test inTest⟩
      (.cons ⟨rfl, presents_list (stmts_presents body inside)⟩ .nil)) (by simp)))
      (branches_presents rest tail)

theorem Block.presents_toJson : (block : Block) → block.Meets .numbersReadBack →
    Presents block.Shows (block.toJson Double.toJson)
  | .mk span body, ⟨_, inside⟩ =>
    presents_node span (FieldsPresent.record
      (.cons ⟨rfl, presents_list (stmts_presents body inside)⟩ .nil) (by simp))

theorem LoopHead.presents_target : (head : LoopHead) → head.Meets .numbersReadBack →
    Presents head.targetShows (head.targetJson Double.toJson)
  | .decl decl, inside =>
    presents_choice "Decl" (presents_node decl.span
      ((decl.fields_present inside).record decl.fields_distinct))
  | .expr e, inside => presents_choice "Assign" (e.presents_toJson inside)

theorem loopInit_presents : (init : Option LoopHead) → loopInitMeets .numbersReadBack init →
    Presents (loopInitShows init) (loopInitJson Double.toJson init)
  | none, _ => presents_str "None"
  | some (.expr e), inside => presents_choice "Expr" (e.presents_toJson inside)
  | some (.decl decl), inside =>
    presents_choice "Decl" (presents_node decl.span
      ((decl.fields_present inside).record decl.fields_distinct))

theorem handler_presents : (handler : Option Handler) → handlerMeets .numbersReadBack handler →
    Presents (optionShows (handlerShows handler)) (handlerJson Double.toJson handler)
  | none, _ => ⟨rfl, trivial⟩
  | some (.mk span param body), ⟨_, inside⟩ =>
    presents_node span (FieldsPresent.record (.cons ⟨rfl, presents_textOption param⟩
      (.cons ⟨rfl, presents_list (stmts_presents body inside)⟩ .nil)) (by simp))

theorem final_presents : (final : Option Block) → finalMeets .numbersReadBack final →
    Presents (optionShows (finalShows final)) (finalJson Double.toJson final)
  | none, _ => ⟨rfl, trivial⟩
  | some block, inside => block.presents_toJson inside

/-- The usual value of a statement presents it if its numbers are read back. -/
theorem Stmt.presents_toJson : (s : Stmt) → s.Meets .numbersReadBack →
    Presents s.Shows (s.toJson Double.toJson)
  | .block _ body, ⟨_, _, inside⟩ =>
    presents_form (.cons ⟨rfl, presents_list (stmts_presents body inside)⟩ .nil) (by simp)
  | .breakTo _ label, _ | .continueTo _ label, _ =>
    presents_form (.cons ⟨rfl, presents_textOption label⟩ .nil) (by simp)
  | .debugger _, _ | .empty _, _ => presents_form .nil .nil
  | .doWhile _ body test, ⟨_, inBody, inTest⟩ | .whileLoop _ test body, ⟨_, inTest, inBody⟩ =>
    presents_form (.cons ⟨rfl, test.presents_toJson inTest⟩
      (.cons ⟨rfl, body.presents_toJson inBody⟩ .nil)) (by simp)
  | .expr _ e, ⟨_, inside⟩ | .throw _ e, ⟨_, inside⟩ =>
    presents_form (.cons ⟨rfl, e.presents_toJson inside⟩ .nil) (by simp)
  | .forIn _ target object body, ⟨_, inTarget, inObject, inBody⟩ =>
    presents_form (.cons ⟨rfl, target.presents_target inTarget⟩
      (.cons ⟨rfl, object.presents_toJson inObject⟩ (.cons ⟨rfl, body.presents_toJson inBody⟩ .nil)))
      (by simp)
  | .forLoop _ init test step body, ⟨_, inInit, inTest, inStep, inBody⟩ =>
    presents_form (.cons ⟨rfl, loopInit_presents init inInit⟩
      (.cons ⟨rfl, exprOption_presents test inTest⟩ (.cons ⟨rfl, exprOption_presents step inStep⟩
      (.cons ⟨rfl, body.presents_toJson inBody⟩ .nil)))) (by simp)
  | .func _ name fn, ⟨_, inside⟩ =>
    presents_form (.cons ⟨rfl, presents_str name⟩ (.cons ⟨rfl, fn.presents_toJson inside⟩ .nil)) (by simp)
  | .ite _ test yes none, ⟨_, inTest, inYes, _⟩ =>
    presents_form (.cons ⟨rfl, test.presents_toJson inTest⟩ (.cons ⟨rfl, yes.presents_toJson inYes⟩
      (.cons ⟨rfl, rfl, trivial⟩ .nil))) (by simp)
  | .ite _ test yes (some no), ⟨_, inTest, inYes, inNo⟩ =>
    presents_form (.cons ⟨rfl, test.presents_toJson inTest⟩ (.cons ⟨rfl, yes.presents_toJson inYes⟩
      (.cons ⟨rfl, no.presents_toJson inNo⟩ .nil))) (by simp)
  | .label _ name body, ⟨_, inside⟩ =>
    presents_form (.cons ⟨rfl, presents_str name⟩ (.cons ⟨rfl, body.presents_toJson inside⟩ .nil)) (by simp)
  | .ret _ value, ⟨_, inside⟩ =>
    presents_form (.cons ⟨rfl, exprOption_presents value inside⟩ .nil) (by simp)
  | .switch _ subject branches, ⟨_, inSubject, inBranches⟩ =>
    presents_form (.cons ⟨rfl, subject.presents_toJson inSubject⟩
      (.cons ⟨rfl, presents_list (branches_presents branches inBranches)⟩ .nil)) (by simp)
  | .tryCatch _ body handler final, ⟨_, inBody, inHandler, inFinal⟩ =>
    presents_form (.cons ⟨rfl, body.presents_toJson inBody⟩ (.cons ⟨rfl, handler_presents handler inHandler⟩
      (.cons ⟨rfl, final_presents final inFinal⟩ .nil))) (by simp)
  | .var _ decl, ⟨_, inside⟩ => presents_form (decl.fields_present inside) decl.fields_distinct
  | .withObject _ object body, ⟨_, inObject, inBody⟩ =>
    presents_form (.cons ⟨rfl, object.presents_toJson inObject⟩
      (.cons ⟨rfl, body.presents_toJson inBody⟩ .nil)) (by simp)

/-- The usual value of a list of statements presents each of them. -/
theorem stmts_presents : (stmts : List Stmt) → stmtsMeet .numbersReadBack stmts →
    List.Forall₂ Presents (stmtsShow stmts) (stmtsJson Double.toJson stmts)
  | [], _ => .nil
  | s :: rest, ⟨head, tail⟩ => .cons (s.presents_toJson head) (stmts_presents rest tail)

end

/-- The usual value of a program presents it if its numbers are read back. -/
theorem Program.presents_toJson {p : Program} (numbers : p.Meets .numbersReadBack) :
    Presents p.Shows (p.toJson Double.toJson) :=
  presents_node p.span (FieldsPresent.record
    (.cons ⟨rfl, presents_list (stmts_presents p.body numbers.2)⟩ .nil) (by simp))

/-! ## Reading back -/

/-- A program is read from every text of a value that shows it and is not nested too deeply. -/
theorem Program.ofText_eq_ok {p : Program} {text : String} {j : Json} (isText : IsTextOf text j)
    (shown : p.Shows j) (shallow : j.depth ≤ Draft.nestLimit) : Program.ofText text = .ok p := by
  have read := p.reads_ofDraft j shown shallow
  rw [Program.ofText, Json.ofText, isText]
  simp only [read, Bool.false_eq_true, if_false]

/-- A program is read back from its usual text if the numbers in it are and the text is not nested too
deeply, and from every text of a value that shows the program and is not nested too deeply. In such a
value spans that were never given and what is absent may be dropped, the fields of a record may stand in
any order and among others, and a record may be the list of its fields. -/
theorem programs_read_back (p : Program) :
    (p.Meets .numbersReadBack → (p.toJson Double.toJson).depth ≤ Draft.nestLimit →
      Program.ofText (p.toJson Double.toJson).render = .ok p) ∧
    ∀ text j, IsTextOf text j → p.Shows j → j.depth ≤ Draft.nestLimit → Program.ofText text = .ok p := by
  constructor
  · intro numbers shallow
    have usual := Program.presents_toJson numbers
    exact Program.ofText_eq_ok (Draft.isTextOf_render usual.readable) usual.shown shallow
  · intro text j isText shown shallow
    exact Program.ofText_eq_ok isText shown shallow

/-- The case of the call `f(.5)`. Its second text drops spans, has fields in another order and two that
mean nothing, and writes some records as lists. -/
theorem programs_read_back_varied :
    let here : Place := default
    let half : Double := .ofDecimal false ⟨5, -1⟩
    let ident : Expr := .ident ⟨⟨0, 1⟩, default⟩ "f"
    let p : Program := ⟨default, [.expr here (.call here false ident [.num here half])]⟩
    let identJson : Json := .arr [.arr [.int 0, .int 1], .obj [("$t", .str "Id"), ("stx", .arr [.str "f"])]]
    let halfJson : Json := .obj [("stx", .obj [("stx", .obj [("unit", .null), ("value", .float half)]),
      ("$t", .str "LitNum")]), ("loc", .arr [.int 0, .int 0])]
    let callJson : Json := .obj [("stx", .arr [.str "Call", .arr [.int 0, .int 0],
      .obj [("arguments", .arr [halfJson]), ("callee", identJson)]])]
    let stmtJson : Json := .obj [("stx", .obj [("$t", .str "Expr"), ("stx", .arr [callJson])])]
    let j : Json := .obj [("version", .int 3), ("stx", .arr [.arr [stmtJson]])]
    p.Meets .numbersReadBack ∧ (p.toJson Double.toJson).depth ≤ Draft.nestLimit ∧
      IsTextOf j.render j ∧ p.Shows j ∧ j.depth ≤ Draft.nestLimit ∧
      Program.ofText (p.toJson Double.toJson).render = .ok p ∧ Program.ofText j.render = .ok p := by
  intro here half ident p identJson halfJson callJson stmtJson j
  have numbers : p.Meets .numbersReadBack :=
    ⟨trivial, ⟨trivial, trivial, trivial, fun _ => readsBack_half, trivial⟩, trivial⟩
  have usual : (p.toJson Double.toJson).depth ≤ Draft.nestLimit := by decide +kernel
  have shallow : j.depth ≤ Draft.nestLimit := by decide +kernel
  have readable : j.IsReadable := by
    simp [j, stmtJson, callJson, halfJson, identJson, half, IsReadable, itemsReadable, fieldsReadable,
      readsBack_half]
  have number : half.toJson = .float half := by
    rw [Double.toJson, if_pos (by decide +kernel)]
  have showsIdent : ident.Shows identJson :=
    .list (.cons rfl (.cons (.field (.once rfl rfl) (.field (.dropped rfl rfl)
      (.field (.once rfl (.list (.cons rfl .nil))) .none))) .nil))
  have showsHalf : (Expr.num here half).Shows halfJson :=
    .field (.once rfl rfl) (.field (.once rfl (.field (.once rfl rfl) (.field (.dropped rfl rfl)
      (.field (.once rfl (.field (.once rfl number.symm) .none)) .none)))) .none)
  have showsCall : (Expr.call here false ident [.num here half]).Shows callJson :=
    .field (.dropped rfl rfl) (.field (.once rfl (.list (.cons rfl (.cons rfl (.cons
      (.field (.dropped rfl rfl) (.field (.once rfl showsIdent) (.field
        (.once rfl (.cons showsHalf .nil)) .none))) .nil))))) .none)
  have showsStmt : (Stmt.expr here (.call here false ident [.num here half])).Shows stmtJson :=
    .field (.dropped rfl rfl) (.field (.once rfl (.field (.once rfl rfl) (.field (.dropped rfl rfl)
      (.field (.once rfl (.list (.cons showsCall .nil))) .none)))) .none)
  have shown : p.Shows j :=
    .field (.dropped rfl rfl) (.field (.once rfl (.list (.cons (.cons showsStmt .nil) .nil))) .none)
  have isText := Draft.isTextOf_render readable
  exact ⟨numbers, usual, isText, shown, shallow, (programs_read_back p).1 numbers usual,
    (programs_read_back p).2 _ j isText shown shallow⟩

end Minifier
