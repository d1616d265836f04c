import Minifier.Proofs.Json.Records
import Minifier.Syntax.Decode
import Minifier.Syntax.Encode

/-!
# Trees that are written in different ways

The texts of trees leave a writer some freedom. A record may be written as an object or as a list, a span
that was never given may be left out, and so may what is absent. `Expr.Shows` and its companions say of a
value that it stands for a tree in this sense, and the readers of trees find that tree in it. The readers
are built up by their depth. If those of one depth find the trees that are not nested deeper, then so do
those of the next.
-/

namespace Minifier

open Json

/-! ## What shows a tree -/

/-- The field of a text. -/
def Json.Field.text (name text : String) : Field :=
  .always name (· = .str text)

/-- The field of a text that may be absent. -/
def Json.Field.textOption (name : String) (text : Option String) : Field :=
  .option name (text.map fun text => (· = .str text))

/-- The field of a list. -/
def Json.Field.list (name : String) (each : List (Json → Prop)) : Field :=
  .always name (listShows each)

/-- The field of a span. A span that was never given may be dropped. -/
def Json.Field.loc (span : Span) : Field :=
  ⟨"loc", (· = span.toJson), span = default⟩

@[simp]
theorem Json.Field.name_text (name text : String) : (Field.text name text).name = name := rfl

@[simp]
theorem Json.Field.name_textOption (name : String) (text : Option String) :
    (Field.textOption name text).name = name := rfl

@[simp]
theorem Json.Field.name_list (name : String) (each : List (Json → Prop)) :
    (Field.list name each).name = name := rfl

@[simp]
theorem Json.Field.name_loc (span : Span) : (Field.loc span).name = "loc" := rfl

/-- The value shows a node with the given content. -/
def nodeShows (span : Span) (content : Json → Prop) : Json → Prop :=
  RecordShown [.loc span, .always "stx" content]

/-- The value shows a node whose content is a tagged node. -/
def formShows (pl : Place) (tag : String) (fields : List Field) : Json → Prop :=
  nodeShows pl.outer
    (RecordShown [tagField tag, .loc pl.inner, .always "stx" (RecordShown fields)])

/-- The value shows a parameter. -/
def Param.Shows (p : Param) : Json → Prop :=
  nodeShows p.span (RecordShown [.text "name" p.name])

mutual

/-- The value shows an expression. -/
def Expr.Shows : Expr → Json → Prop
  | .binary pl op left right => formShows pl "Binary"
    [.text "operator" op.name, .always "left" left.Shows, .always "right" right.Shows]
  | .call pl isNew callee args => formShows pl "Call"
    [⟨"construct", (· = .bool isNew), isNew = false⟩, .always "callee" callee.Shows,
      .list "arguments" (exprsShow args)]
  | .index pl object key => formShows pl "ComputedMember"
    [.always "object" object.Shows, .always "member" key.Shows]
  | .cond pl test yes no => formShows pl "Cond"
    [.always "test" test.Shows, .always "consequent" yes.Shows, .always "alternate" no.Shows]
  | .func pl name fn => formShows pl "Func" [.textOption "name" name, .always "func" fn.Shows]
  | .ident pl name => formShows pl "Id" [.text "name" name]
  | .member pl object name => formShows pl "Member" [.always "left" object.Shows, .text "right" name]
  | .this pl => formShows pl "This" []
  | .unary pl op arg => formShows pl "Unary" [.text "operator" op.name, .always "argument" arg.Shows]
  | .update pl op arg => formShows pl "UnaryPostfix"
    [.text "operator" op.name, .always "argument" arg.Shows]
  | .array pl elements => formShows pl "LitArr" [.list "elements" (elementsShow elements)]
  | .bool pl value => formShows pl "LitBool" [.always "value" (· = .bool value)]
  | .null pl => formShows pl "LitNull" []
  | .num pl value => formShows pl "LitNum" [.always "value" (· = value.toJson)]
  | .object pl members => formShows pl "LitObj" [.list "members" (membersShow members)]
  | .regex pl text => formShows pl "LitRegex" [.text "value" text]
  | .str pl value => formShows pl "LitStr" [.text "value" value]
  | .undef pl => formShows pl "LitUndefined" []

/-- What shows each expression of a list. -/
def exprsShow : List Expr → List (Json → Prop)
  | [] => []
  | e :: rest => e.Shows :: exprsShow rest

/-- What shows an expression that may be absent. -/
def exprOptionShows : Option Expr → Option (Json → Prop)
  | none => none
  | some e => some e.Shows

/-- The value shows an element of an array literal. -/
def elementShows : Option Expr → Json → Prop
  | none => (· = .str "Empty")
  | some e => choiceShows "Single" e.Shows

/-- What shows each element of an array literal. -/
def elementsShow : List (Option Expr) → List (Json → Prop)
  | [] => []
  | e :: rest => elementShows e :: elementsShow rest

/-- The value shows a function. -/
def Func.Shows : Func → Json → Prop
  | .mk span params body => nodeShows span
    (RecordShown [.list "parameters" (params.map Param.Shows), .list "body" (stmtsShow body)])

/-- The value shows a member of an object literal. -/
def Member.Shows : Member → Json → Prop
  | .value span key e => nodeShows span
    (RecordShown [.text "key" key, .always "value" (choiceShows "Prop" e.Shows)])
  | .getter span key fn => nodeShows span
    (RecordShown [.text "key" key, .always "value" (choiceShows "Getter" fn.Shows)])
  | .setter span key fn => nodeShows span
    (RecordShown [.text "key" key, .always "value" (choiceShows "Setter" fn.Shows)])

/-- What shows each member of an object literal. -/
def membersShow : List Member → List (Json → Prop)
  | [] => []
  | member :: rest => member.Shows :: membersShow rest

/-- The value shows a declared name. -/
def Declarator.Shows : Declarator → Json → Prop
  | .mk name init => RecordShown [.text "name" name, .option "initializer" (exprOptionShows init)]

/-- What shows each declared name. -/
def declaratorsShow : List Declarator → List (Json → Prop)
  | [] => []
  | d :: rest => d.Shows :: declaratorsShow rest

/-- The fields that show a declaration. -/
def VarDecl.fields : VarDecl → List Field
  | .mk _ mode declarators =>
    [.always "mode" (· = mode.toJson), .list "declarators" (declaratorsShow declarators)]

/-- The value shows a branch of a `switch`. -/
def Branch.Shows : Branch → Json → Prop
  | .mk span test body => nodeShows span
    (RecordShown [.option "case" (exprOptionShows test), .list "body" (stmtsShow body)])

/-- What shows each branch of a `switch`. -/
def branchesShow : List Branch → List (Json → Prop)
  | [] => []
  | branch :: rest => branch.Shows :: branchesShow rest

/-- The value shows a block of a `try` statement. -/
def Block.Shows : Block → Json → Prop
  | .mk span body => nodeShows span (RecordShown [.list "body" (stmtsShow body)])

/-- The value shows the target of a loop over the keys of an object. -/
def LoopHead.targetShows : LoopHead → Json → Prop
  | .decl decl => choiceShows "Decl" (nodeShows decl.span (RecordShown decl.fields))
  | .expr e => choiceShows "Assign" e.Shows

/-- The value shows what a counting loop starts from. -/
def loopInitShows : Option LoopHead → Json → Prop
  | none => (· = .str "None")
  | some (.expr e) => choiceShows "Expr" e.Shows
  | some (.decl decl) => choiceShows "Decl" (nodeShows decl.span (RecordShown decl.fields))

/-- The value shows the `catch` part of a `try` statement. -/
def Handler.Shows : Handler → Json → Prop
  | .mk span param body => nodeShows span
    (RecordShown [.textOption "parameter" param, .list "body" (stmtsShow body)])

/-- What shows the `catch` part of a `try` statement, which may be absent. -/
def handlerShows : Option Handler → Option (Json → Prop)
  | none => none
  | some handler => some handler.Shows

/-- What shows the `finally` part of a `try` statement, which may be absent. -/
def finalShows : Option Block → Option (Json → Prop)
  | none => none
  | some block => some block.Shows

/-- The value shows a statement. -/
def Stmt.Shows : Stmt → Json → Prop
  | .block pl body => formShows pl "Block" [.list "body" (stmtsShow body)]
  | .breakTo pl label => formShows pl "Break" [.textOption "label" label]
  | .continueTo pl label => formShows pl "Continue" [.textOption "label" label]
  | .debugger pl => formShows pl "Debugger" []
  | .doWhile pl body test => formShows pl "DoWhile"
    [.always "condition" test.Shows, .always "body" body.Shows]
  | .empty pl => formShows pl "Empty" []
  | .expr pl e => formShows pl "Expr" [.always "expr" e.Shows]
  | .forIn pl target object body => formShows pl "ForIn"
    [.always "lhs" target.targetShows, .always "rhs" object.Shows, .always "body" body.Shows]
  | .forLoop pl init test step body => formShows pl "ForTriple"
    [.always "init" (loopInitShows init), .option "cond" (exprOptionShows test),
      .option "post" (exprOptionShows step), .always "body" body.Shows]
  | .func pl name fn => formShows pl "FunctionDecl" [.text "name" name, .always "function" fn.Shows]
  | .ite pl test yes no => formShows pl "If"
    [.always "test" test.Shows, .always "consequent" yes.Shows, .option "alternate" (elseShows no)]
  | .label pl name body => formShows pl "Label" [.text "name" name, .always "statement" body.Shows]
  | .ret pl value => formShows pl "Return" [.option "value" (exprOptionShows value)]
  | .switch pl subject branches => formShows pl "Switch"
    [.always "test" subject.Shows, .list "branches" (branchesShow branches)]
  | .throw pl value => formShows pl "Throw" [.always "value" value.Shows]
  | .tryCatch pl body handler final => formShows pl "Try"
    [.always "wrapped" body.Shows, .option "catch" (handlerShows handler),
      .option "finally" (finalShows final)]
  | .var outer decl => formShows ⟨outer, decl.span⟩ "VarDecl" decl.fields
  | .whileLoop pl test body => formShows pl "While"
    [.always "condition" test.Shows, .always "body" body.Shows]
  | .withObject pl object body => formShows pl "With"
    [.always "object" object.Shows, .always "body" body.Shows]

/-- What shows an `else` branch. -/
def elseShows : Option Stmt → Option (Json → Prop)
  | none => none
  | some s => some s.Shows

/-- What shows each statement of a list. -/
def stmtsShow : List Stmt → List (Json → Prop)
  | [] => []
  | s :: rest => s.Shows :: stmtsShow rest

end

/-- The value shows a program. -/
def Program.Shows (p : Program) : Json → Prop :=
  nodeShows p.span (RecordShown [.list "body" (stmtsShow p.body)])

/-- What shows the expressions of a list is what shows each of them. The same is said below for the
other lists and for what may be absent. -/
theorem exprsShow_eq (es : List Expr) : exprsShow es = es.map Expr.Shows := by
  induction es with
  | nil => rfl
  | cons e rest ih => rw [exprsShow, ih, List.map_cons]

theorem elementsShow_eq (elements : List (Option Expr)) :
    elementsShow elements = elements.map elementShows := by
  induction elements with
  | nil => rfl
  | cons e rest ih => rw [elementsShow, ih, List.map_cons]

theorem membersShow_eq (members : List Member) : membersShow members = members.map Member.Shows := by
  induction members with
  | nil => rfl
  | cons member rest ih => rw [membersShow, ih, List.map_cons]

theorem declaratorsShow_eq (ds : List Declarator) : declaratorsShow ds = ds.map Declarator.Shows := by
  induction ds with
  | nil => rfl
  | cons d rest ih => rw [declaratorsShow, ih, List.map_cons]

theorem branchesShow_eq (branches : List Branch) : branchesShow branches = branches.map Branch.Shows := by
  induction branches with
  | nil => rfl
  | cons branch rest ih => rw [branchesShow, ih, List.map_cons]

theorem stmtsShow_eq (stmts : List Stmt) : stmtsShow stmts = stmts.map Stmt.Shows := by
  induction stmts with
  | nil => rfl
  | cons s rest ih => rw [stmtsShow, ih, List.map_cons]

theorem exprOptionShows_eq (e : Option Expr) : exprOptionShows e = e.map Expr.Shows := by
  cases e <;> rfl

theorem handlerShows_eq (handler : Option Handler) : handlerShows handler = handler.map Handler.Shows := by
  cases handler <;> rfl

theorem finalShows_eq (final : Option Block) : finalShows final = final.map Block.Shows := by
  cases final <;> rfl

theorem elseShows_eq (no : Option Stmt) : elseShows no = no.map Stmt.Shows := by
  cases no <;> rfl

/-- An expression is shown by a list or an object, never by a value without depth. -/
theorem Expr.depth_pos_of_shows {e : Expr} {j : Json} (shown : e.Shows j) : 0 < j.depth := by
  cases e <;> exact RecordShown.depth_pos shown

/-- A statement is shown by a list or an object, never by a value without depth. -/
theorem Stmt.depth_pos_of_shows {s : Stmt} {j : Json} (shown : s.Shows j) : 0 < j.depth := by
  cases s <;> exact RecordShown.depth_pos shown

/-- Null shows no expression, so it can stand for an absent one. -/
theorem Expr.not_shows_null {e : Expr} : ¬ e.Shows .null := by
  cases e <;> exact RecordShown.not_null

/-- Null shows no statement. -/
theorem Stmt.not_shows_null {s : Stmt} : ¬ s.Shows .null := by
  cases s <;> exact RecordShown.not_null

theorem Handler.not_shows_null {handler : Handler} : ¬ handler.Shows .null := by
  cases handler
  exact RecordShown.not_null

theorem Block.not_shows_null {block : Block} : ¬ block.Shows .null := by
  cases block
  exact RecordShown.not_null

/-! ## Readers of the leaves -/

section Leaves

variable {n : Nat}

/-- A text is read from the string that it is. -/
theorem reads_toText (text : String) : Reads id toText (· = .str text) n text := by
  rintro _ rfl -
  rfl

/-- A truth value is read from itself. -/
theorem reads_toBool (value : Bool) : Reads id toBool (· = .bool value) n value := by
  rintro _ rfl -
  rfl

/-- A number is read from what it is written as, also if it is not finite and written as a string. -/
theorem reads_double (v : Double) : Reads id Double.ofJson (· = v.toJson) n v := by
  rintro _ rfl -
  match v with
  | .nan | .infinite false | .infinite true | .finite _ _ => rfl

/-- Every offset is read back, as the integers that are written fit in 64 bits. -/
theorem toOffset_toNat (offset : UInt64) : toOffset (.int offset.toNat) = .ok offset := by
  have whole : ¬ (offset.toNat : Int) < 0 := by omega
  rw [toOffset, if_neg whole, Int.toNat_natCast, UInt64.ofNat_toNat]

/-- The two offsets of a span make up the span again, whatever reader the offsets have. -/
theorem takes_spanRecord {V : Type} {g : Json → V} {offset : V → Decoded UInt64} (span : Span)
    (reads : ∀ x : UInt64, offset (g (.int x.toNat)) = .ok x) :
    (Span.record offset).Takes g n
      [.always "0" (· = .int span.start.toNat), .always "1" (· = .int span.stop.toNat)] span := by
  have each (x : UInt64) : Reads g offset (· = .int x.toNat) n x := by
    rintro _ rfl -
    exact reads x
  exact ((Record.takes_required (each span.start)).map Span.mk).seq
    (Record.takes_required (each span.stop))

/-- A span is read from the pair of its offsets. -/
theorem reads_span (span : Span) : Reads id Span.ofJson (· = span.toJson) n span := by
  rintro _ rfl -
  exact Record.ofJson_list (takes_spanRecord span toOffset_toNat) (.cons rfl (.cons rfl .nil)) le_rfl _

/-- A span is read from the draft of the pair of its offsets. -/
theorem reads_spanDraft (span : Span) : Reads Draft.ofJson Span.ofDraft (· = span.toJson) n span := by
  rintro _ rfl -
  exact Record.ofDraft_list (takes_spanRecord span toOffset_toNat) (.cons rfl (.cons rfl .nil)) le_rfl _

/-- One of a list of values is read from its name, if the names are distinct. -/
theorem reads_toName {α : Type} {names : List String} {values : List α} {name : String} {x : α}
    (distinct : names.Nodup) (index : Nat) (isName : names[index]? = some name)
    (isValue : values[index]? = some x) : Reads id (toName names values) (· = .str name) n x := by
  refine reads_toChoice_name distinct index isName ?_
  change pick names values index = .ok x
  rw [pick, isValue]

/-- Every operator is read from its name. -/
theorem reads_operator (op : Operator) : Reads id Operator.ofJson (· = .str op.name) n op := by
  have listed : op ∈ Operator.all := by cases op <;> decide
  obtain ⟨index, here⟩ := List.mem_iff_getElem?.mp listed
  exact reads_toName (by decide) index (by rw [List.getElem?_map, here]; rfl) here

/-- Every mode of a declaration is read from its name. -/
theorem reads_declMode (mode : DeclMode) : Reads id DeclMode.ofJson (· = mode.toJson) n mode := by
  have distinct : ["Const", "Let", "Var"].Nodup := by decide
  cases mode with
  | const => exact reads_toName distinct 0 rfl rfl
  | block => exact reads_toName distinct 1 rfl rfl
  | var => exact reads_toName distinct 2 rfl rfl

/-- A text that may be absent is read from its field, from null or from no field. -/
theorem takes_textOption {name : String} (text : Option String) :
    (textOptionField name).Takes id n [.textOption name text] text :=
  takes_option (fun text _ => reads_toText text) (fun _ null => by cases null)

end Leaves

/-! ## Readers of nodes and their forms -/

section Nodes

variable {α : Type} {n : Nat} {shows : Json → Prop} {x : α}

/-- A node is read from its span and its content, in any order; a span of zeros may be dropped. -/
theorem reads_nodeOf {f : Json → Decoded α} (reads : Reads id f shows n x) (span : Span) :
    Reads id (nodeOf f) (nodeShows span shows) (n + 1) (span, x) :=
  Record.reads_ofJson
    (((Record.takes_defaulted (reads_span span)).map Prod.mk).seq (Record.takes_required reads)) "Node"

/-- A node is read from a draft in the same way. -/
theorem reads_nodeOfDraft {f : Draft → Decoded α} (reads : Reads Draft.ofJson f shows n x) (span : Span) :
    Reads Draft.ofJson (nodeOfDraft f) (nodeShows span shows) (n + 1) (span, x) :=
  Record.reads_ofDraft
    (((Record.takes_defaulted (reads_spanDraft span)).map Prod.mk).seq (Record.takes_required reads)) "Node"

/-- The values that show `x` show one of the forms, and the record of that form gives `x`. -/
inductive HasForm (n : Nat) (forms : List (Form α)) (shows : Json → Prop) (x : α) : Prop
  | intro {tag name : String} {record : Record Json (Place → α)} {fields : List Field} {make : Place → α}
    (index : Nat) (pl : Place) (here : forms[index]? = some ⟨tag, name, record⟩)
    (takes : record.Takes id n fields make) (shown : shows = formShows pl tag fields) (made : make pl = x)

variable {forms : List (Form α)}

/-- Below the tag there is again a node, which is read with the record of the form. -/
theorem reads_ofForms {form : Form α} {fields : List Field} {make : Place → α} {index : Nat}
    (here : forms[index]? = some form) (takes : form.record.Takes id n fields make) (inner : Span) :
    Reads id (fun content => ofForms forms (index, content))
      (RecordShown [.loc inner, .always "stx" (RecordShown fields)]) (n + 2)
      (fun outer => make ⟨outer, inner⟩) := by
  have inside := reads_nodeOf (Record.reads_ofJson takes form.name) inner
  intro j shown shallow
  have read := inside j shown shallow
  rw [id] at read
  simp only [id, ofForms, here, read]
  rfl

/-- The tag of a form leads to the form, if no two forms have the same tag. -/
theorem variantNamed_tag {form : Form α} {index : Nat} (distinct : (forms.map Form.tag).Nodup)
    (here : forms[index]? = some form) : variantNamed (forms.map Form.tag) form.tag = .ok index :=
  variantNamed_eq distinct (by rw [List.getElem?_map, here]; rfl)

/-- No other field of a tagged node has the name of the tag. -/
theorem loc_stx_apart {span : Span} {content : Json → Prop} :
    ∀ f ∈ [Field.loc span, .always "stx" content], f.name ≠ tagKey := by
  simp [tagKey]

/-- What has one of the forms is read from all values that show it. -/
theorem HasForm.reads (form : HasForm n forms shows x) (distinct : (forms.map Form.tag).Nodup)
    (name : String) : Reads id (ofTaggedNode name forms) shows (n + 3) x := by
  obtain ⟨index, pl, here, takes, rfl, rfl⟩ := form
  have named := variantNamed_tag distinct here
  have content := reads_tagged loc_stx_apart (fun _ shown _ => toTagged_eq named shown name)
    (reads_ofForms here takes pl.inner)
  exact (reads_nodeOf content pl.outer).bind rfl

/-- It is read from their drafts too, as far as the reader goes down into a draft. -/
theorem HasForm.readsDraft (form : HasForm n forms shows x) (distinct : (forms.map Form.tag).Nodup)
    (name : String) {depth : Nat} (shallow : depth ≤ n + 2) :
    Reads Draft.ofJson (ofTaggedNodeDraft name forms (depth + 1)) shows (depth + 1) x := by
  obtain ⟨index, pl, here, takes, rfl, rfl⟩ := form
  have named := variantNamed_tag distinct here
  have content := reads_tagged loc_stx_apart
    (fun _ shown shallow => taggedOfDraft_eq named shown shallow name)
    ((reads_ofForms here takes pl.inner).mono shallow)
  exact (reads_nodeOfDraft content pl.outer).bind rfl

/-- A node with a record in it is read, and something is made of both. -/
theorem reads_node {r : Record Json α} {fields : List Field} {β : Type} {k : Span × α → Decoded β} {y : β}
    (takes : r.Takes id n fields x) (name : String) (span : Span) (next : k (span, x) = .ok y) :
    Reads id (fun value => nodeOf (r.ofJson (.record name)) value >>= k)
      (nodeShows span (RecordShown fields)) n y :=
  ((reads_nodeOf (Record.reads_ofJson takes name) span).bind next).mono (Nat.le_add_right n 2)

/-- The field of a list is read item by item. -/
theorem takes_list {f : Json → Decoded α} {shows : α → Json → Prop} {xs : List α} {name : String}
    (each : ∀ x ∈ xs, Reads id f (shows x) n x) :
    (Record.required name (toList f)).Takes id n [.list name (xs.map shows)] xs :=
  Record.takes_required (reads_toList each)

/-- A parameter is read from every value that shows it. -/
theorem reads_param (p : Param) : Reads id Readers.param p.Shows n p :=
  reads_node ((Record.takes_required (reads_toText p.name)).map id) "ParamDecl" p.span rfl

end Nodes

/-! ## Readers of trees -/

/-- The readers find the trees that are nested no more than `n` deep. -/
structure Readers.Find (r : Readers) (n : Nat) : Prop where
  expr : ∀ e : Expr, Reads id r.expr e.Shows n e
  stmt : ∀ s : Stmt, Reads id r.stmt s.Shows n s

namespace Readers.Find

open Record

variable {r : Readers} {n : Nat}

/-- The field of an expression is read by the reader of expressions. -/
theorem takes_expr (find : r.Find n) {name : String} (e : Expr) :
    (r.exprField name).Takes id n [.always name e.Shows] e :=
  Record.takes_required (find.expr e)

/-- The field of a statement is read by the reader of statements. -/
theorem takes_stmt (find : r.Find n) {name : String} (s : Stmt) :
    (r.stmtField name).Takes id n [.always name s.Shows] s :=
  Record.takes_required (find.stmt s)

/-- An expression that may be absent is read from its field, from null or from no field. -/
theorem takes_exprOption (find : r.Find n) {name : String} (o : Option Expr) :
    (r.exprOptionField name).Takes id n [.option name (exprOptionShows o)] o := by
  rw [exprOptionShows_eq]
  exact takes_option (fun e _ => find.expr e) fun _ => Expr.not_shows_null

/-- The statements of a body are read one after the other. -/
theorem takes_body (find : r.Find n) (body : List Stmt) :
    r.bodyField.Takes id n [.list "body" (stmtsShow body)] body := by
  rw [stmtsShow_eq]
  exact takes_list fun s _ => find.stmt s

/-- A function is read from every value that shows it. -/
theorem func (find : r.Find n) (fn : Func) : Reads id r.func fn.Shows n fn := by
  obtain ⟨span, params, body⟩ := fn
  exact reads_node (((takes_list fun p (_ : p ∈ params) => reads_param p).map Prod.mk).seq
    (find.takes_body body)) "Func" span rfl

/-- An element of an array literal is read, and so is a hole. -/
theorem element (find : r.Find n) (e : Option Expr) : Reads id r.element (elementShows e) n e := by
  cases e with
  | none => exact reads_toChoice_name (by decide) 1 rfl rfl
  | some e => exact reads_toChoice (by decide) 0 rfl ((find.expr e).map some)

/-- A member is read if what stands at its key is read. -/
theorem member_of_value {shows : Json → Prop} {key : String} {make : Span → String → Member}
    (value : Reads id r.memberValue shows n make) (span : Span) :
    Reads id r.member (nodeShows span (RecordShown [.text "key" key, .always "value" shows])) n
      (make span key) :=
  reads_node (((takes_required (reads_toText key)).map Prod.mk).seq (takes_required value)) "ObjMember" span
    rfl

/-- A member of an object literal is read: a value, a getter or a setter. -/
theorem member (find : r.Find n) (m : Member) : Reads id r.member m.Shows n m := by
  cases m with
  | value span key e =>
    exact member_of_value (reads_toChoice (by decide) 0 rfl
      ((find.expr e).map fun e span key => Member.value span key e)) span
  | getter span key fn =>
    exact member_of_value (reads_toChoice (by decide) 1 rfl
      ((find.func fn).map fun fn span key => Member.getter span key fn)) span
  | setter span key fn =>
    exact member_of_value (reads_toChoice (by decide) 2 rfl
      ((find.func fn).map fun fn span key => Member.setter span key fn)) span

theorem declarator (find : r.Find n) (d : Declarator) : Reads id r.declarator d.Shows n d := by
  obtain ⟨name, init⟩ := d
  exact (reads_ofJson (((takes_required (reads_toText name)).map Declarator.mk).seq
    (find.takes_exprOption init)) "VarDeclarator").mono (Nat.le_succ n)

/-- The mode and the names of a declaration are read from its fields. -/
theorem takes_decl (find : r.Find n) (decl : VarDecl) :
    r.declRecord.Takes id n decl.fields (.mk · decl.mode decl.declarators) := by
  obtain ⟨span, mode, declarators⟩ := decl
  rw [VarDecl.fields, declaratorsShow_eq]
  exact ((takes_required (reads_declMode mode)).map _).seq (takes_list fun d _ => find.declarator d)

theorem decl (find : r.Find n) (decl : VarDecl) :
    Reads id r.decl (nodeShows decl.span (RecordShown decl.fields)) n decl := by
  have takes := find.takes_decl decl
  obtain ⟨span, mode, declarators⟩ := decl
  exact reads_node takes "VarDecl" span rfl

/-- The target of a loop over keys is a declaration or an expression, and the name of the choice tells
which. -/
theorem loopTarget (find : r.Find n) (head : LoopHead) :
    Reads id r.loopTarget head.targetShows n head := by
  cases head with
  | decl d => exact reads_toChoice (by decide) 0 rfl ((find.decl d).map LoopHead.decl)
  | expr e => exact reads_toChoice (by decide) 1 rfl ((find.expr e).map LoopHead.expr)

/-- A counting loop starts from nothing, an expression or a declaration, and each is read. -/
theorem loopInit (find : r.Find n) (init : Option LoopHead) :
    Reads id r.loopInit (loopInitShows init) n init := by
  obtain _ | d | e := init
  · exact reads_toChoice_name (by decide) 0 rfl rfl
  · exact reads_toChoice (by decide) 2 rfl ((find.decl d).map fun d => some (LoopHead.decl d))
  · exact reads_toChoice (by decide) 1 rfl ((find.expr e).map fun e => some (LoopHead.expr e))

theorem branch (find : r.Find n) (b : Branch) : Reads id r.branch b.Shows n b := by
  obtain ⟨span, test, body⟩ := b
  exact reads_node (((find.takes_exprOption test).map Prod.mk).seq (find.takes_body body)) "SwitchBranch"
    span rfl

theorem block (find : r.Find n) (b : Block) : Reads id r.block b.Shows n b := by
  obtain ⟨span, body⟩ := b
  exact reads_node ((find.takes_body body).map id) "BlockStmt" span rfl

theorem handler (find : r.Find n) (h : Handler) : Reads id r.handler h.Shows n h := by
  obtain ⟨span, param, body⟩ := h
  exact reads_node (((takes_textOption param).map Prod.mk).seq (find.takes_body body)) "CatchBlock" span
    rfl

/-- An expression is found by the record of its form. -/
theorem exprForm (find : r.Find n) : (e : Expr) → HasForm n r.exprForms e.Shows e
  -- Each case gives the place of its form in the list of forms, and takes the fields in their order there.
  | .binary pl op left right =>
    .intro 0 pl rfl ((((takes_required (reads_operator op)).map _).seq (find.takes_expr left)).seq
      (find.takes_expr right)) rfl rfl
  | .call pl isNew callee args => by
    have inArgs : (Record.required "arguments" (toList r.expr)).Takes id n
        [.list "arguments" (exprsShow args)] args := by
      rw [exprsShow_eq]
      exact takes_list fun e _ => find.expr e
    exact .intro 1 pl rfl ((((takes_defaulted (reads_toBool isNew)).map _).seq
      (find.takes_expr callee)).seq inArgs) rfl rfl
  | .index pl object key =>
    .intro 2 pl rfl (((find.takes_expr object).map _).seq (find.takes_expr key)) rfl rfl
  | .cond pl test yes no =>
    .intro 3 pl rfl ((((find.takes_expr test).map _).seq (find.takes_expr yes)).seq (find.takes_expr no))
      rfl rfl
  | .func pl name fn =>
    .intro 4 pl rfl (((takes_textOption name).map _).seq (takes_required (find.func fn))) rfl rfl
  | .ident pl name => .intro 5 pl rfl ((takes_required (reads_toText name)).map _) rfl rfl
  | .member pl object name =>
    .intro 6 pl rfl (((find.takes_expr object).map _).seq (takes_required (reads_toText name))) rfl rfl
  | .this pl => .intro 7 pl rfl (takes_pure _) rfl rfl
  | .unary pl op arg =>
    .intro 8 pl rfl (((takes_required (reads_operator op)).map _).seq (find.takes_expr arg)) rfl rfl
  | .update pl op arg =>
    .intro 9 pl rfl (((takes_required (reads_operator op)).map _).seq (find.takes_expr arg)) rfl rfl
  | .array pl elements => by
    have inElements : (Record.required "elements" (toList r.element)).Takes id n
        [.list "elements" (elementsShow elements)] elements := by
      rw [elementsShow_eq]
      exact takes_list fun e _ => find.element e
    exact .intro 10 pl rfl (inElements.map _) rfl rfl
  | .bool pl value => .intro 11 pl rfl ((takes_required (reads_toBool value)).map _) rfl rfl
  | .null pl => .intro 12 pl rfl (takes_pure _) rfl rfl
  | .num pl value => .intro 13 pl rfl ((takes_required (reads_double value)).map _) rfl rfl
  | .object pl members => by
    have inMembers : (Record.required "members" (toList r.member)).Takes id n
        [.list "members" (membersShow members)] members := by
      rw [membersShow_eq]
      exact takes_list fun m _ => find.member m
    exact .intro 14 pl rfl (inMembers.map _) rfl rfl
  | .regex pl text => .intro 15 pl rfl ((takes_required (reads_toText text)).map _) rfl rfl
  | .str pl value => .intro 16 pl rfl ((takes_required (reads_toText value)).map _) rfl rfl
  | .undef pl => .intro 17 pl rfl (takes_pure _) rfl rfl

/-- A statement is found by the record of its form. -/
theorem stmtForm (find : r.Find n) : (s : Stmt) → HasForm n r.stmtForms s.Shows s
  | .block pl body => .intro 0 pl rfl ((find.takes_body body).map _) rfl rfl
  | .breakTo pl label => .intro 1 pl rfl ((takes_textOption label).map _) rfl rfl
  | .continueTo pl label => .intro 2 pl rfl ((takes_textOption label).map _) rfl rfl
  | .debugger pl => .intro 3 pl rfl (takes_pure _) rfl rfl
  | .doWhile pl body test =>
    .intro 4 pl rfl (((find.takes_expr test).map _).seq (find.takes_stmt body)) rfl rfl
  | .empty pl => .intro 5 pl rfl (takes_pure _) rfl rfl
  | .expr pl e => .intro 6 pl rfl ((find.takes_expr e).map _) rfl rfl
  | .forIn pl target object body =>
    .intro 7 pl rfl ((((takes_required (find.loopTarget target)).map _).seq (find.takes_expr object)).seq
      (find.takes_stmt body)) rfl rfl
  | .forLoop pl init test step body =>
    .intro 8 pl rfl (((((takes_required (find.loopInit init)).map _).seq (find.takes_exprOption test)).seq
      (find.takes_exprOption step)).seq (find.takes_stmt body)) rfl rfl
  | .func pl name fn =>
    .intro 9 pl rfl (((takes_required (reads_toText name)).map _).seq (takes_required (find.func fn)))
      rfl rfl
  | .ite pl test yes no => by
    have inElse : (Record.optional "alternate" (toOption r.stmt)).Takes id n
        [.option "alternate" (elseShows no)] no := by
      rw [elseShows_eq]
      exact takes_option (fun s _ => find.stmt s) fun _ => Stmt.not_shows_null
    exact .intro 10 pl rfl ((((find.takes_expr test).map _).seq (find.takes_stmt yes)).seq inElse) rfl rfl
  | .label pl name body =>
    .intro 11 pl rfl (((takes_required (reads_toText name)).map _).seq (find.takes_stmt body)) rfl rfl
  | .ret pl value => .intro 12 pl rfl ((find.takes_exprOption value).map _) rfl rfl
  | .switch pl subject branches => by
    have inBranches : (Record.required "branches" (toList r.branch)).Takes id n
        [.list "branches" (branchesShow branches)] branches := by
      rw [branchesShow_eq]
      exact takes_list fun b _ => find.branch b
    exact .intro 13 pl rfl (((find.takes_expr subject).map _).seq inBranches) rfl rfl
  | .throw pl value => .intro 14 pl rfl ((find.takes_expr value).map _) rfl rfl
  | .tryCatch pl body handler final => by
    have inHandler : (Record.optional "catch" (toOption r.handler)).Takes id n
        [.option "catch" (handlerShows handler)] handler := by
      rw [handlerShows_eq]
      exact takes_option (fun h _ => find.handler h) fun _ => Handler.not_shows_null
    have inFinal : (Record.optional "finally" (toOption r.block)).Takes id n
        [.option "finally" (finalShows final)] final := by
      rw [finalShows_eq]
      exact takes_option (fun b _ => find.block b) fun _ => Block.not_shows_null
    exact .intro 15 pl rfl ((((takes_required (find.block body)).map _).seq inHandler).seq inFinal) rfl rfl
  | .var outer (.mk span mode declarators) =>
    .intro 16 ⟨outer, span⟩ rfl ((find.takes_decl (.mk span mode declarators)).map _) rfl rfl
  | .whileLoop pl test body =>
    .intro 17 pl rfl (((find.takes_expr test).map _).seq (find.takes_stmt body)) rfl rfl
  | .withObject pl object body =>
    .intro 18 pl rfl (((find.takes_expr object).map _).seq (find.takes_stmt body)) rfl rfl

end Readers.Find

/-- No two forms of expressions have the same tag. -/
theorem exprForms_distinct (r : Readers) : (r.exprForms.map Form.tag).Nodup := by
  simp only [Readers.exprForms, List.map_cons, List.map_nil]
  decide

/-- No two forms of statements have the same tag. -/
theorem stmtForms_distinct (r : Readers) : (r.stmtForms.map Form.tag).Nodup := by
  simp only [Readers.stmtForms, List.map_cons, List.map_nil]
  decide

/-- The readers of each depth find the trees that are nested no deeper. -/
theorem find_readers (n : Nat) : (readers n).Find n := by
  induction n with
  | zero =>
    -- What shows a tree is a list or an object, so nothing is read at this depth.
    constructor
    · intro e j shown shallow
      exact absurd (Expr.depth_pos_of_shows shown) (Nat.not_lt.mpr shallow)
    · intro s j shown shallow
      exact absurd (Stmt.depth_pos_of_shows shown) (Nat.not_lt.mpr shallow)
  | succ n find =>
    -- A node, its content and the record in it lie above the fields, so the depth is reached with room.
    have deeper : n + 1 ≤ n + 3 := by omega
    constructor
    · intro e
      exact ((find.exprForm e).reads (exprForms_distinct _) "Expr").mono deeper
    · intro s
      exact ((find.stmtForm s).reads (stmtForms_distinct _) "Stmt").mono deeper

/-- A program is found in the draft of every value that shows it and is not nested too deeply. -/
theorem Program.reads_ofDraft (p : Program) :
    Reads Draft.ofJson Program.ofDraft p.Shows Draft.nestLimit p := by
  -- The statements lie in a list in a record in a node, which leaves three levels less for them.
  have stmt (s : Stmt) : Reads Draft.ofJson (Stmt.ofDraft 124) s.Shows 124 s :=
    ((find_readers Draft.nestLimit).stmtForm s).readsDraft (stmtForms_distinct _) "Stmt" (by decide)
  have body : Reads Draft.ofJson (listOfDraft (Stmt.ofDraft 124)) (listShows (stmtsShow p.body)) 125
      p.body := by
    rw [stmtsShow_eq]
    exact reads_listOfDraft fun s _ => stmt s
  exact (reads_nodeOfDraft (Record.reads_ofDraft ((Record.takes_required body).map id) "TopLevel")
    p.span).bind rfl

end Minifier
