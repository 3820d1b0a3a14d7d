import PascalTree.Stored.Type

/-!
# Schema — how stored values are composed

A record has named fields in a fixed order, some with a default; an enumeration has named
variants, bare or with content. The schema gives the record or the variants of every composed
type.
-/

namespace PascalTree
namespace Stored

variable {α : Type}

/-! ## Records -/

/-- A field of a record; without a default it must be present. -/
structure Field where
  name : String
  type : Ty
  default? : Option type.Val := none

/-- The functions that take a value for each field and give an `α`. -/
abbrev Maker (α : Type) : List Field → Type
  | [] => α
  | f :: fs => f.type.Val → Maker α fs

/-- A record: its name in diagnostics, its fields, and the value made of them. -/
structure Record (α : Type) where
  name : String
  fields : List Field
  make : Maker α fields

/-! ## Enumerations -/

/-- A variant of an enumeration. -/
inductive Variant (α : Type) where
  | bare (name : String) (value : α)
  | carrying (name : String) (type : Ty) (make : type.Val → α)

namespace Variant

def name : Variant α → String
  | bare name _ => name
  | carrying name _ _ => name

end Variant

/-- The bare variants of the members of a list. -/
def bareVariants (tag : α → String) (all : List α) : List (Variant α) :=
  all.map fun x => .bare (tag x) x

/-! ## What nodes carry -/

def positionRecord : Record Position where
  name := "Position"
  fields := [⟨"line", .optional .word32, some none⟩, ⟨"row", .optional .word32, some none⟩]
  make := Position.mk

def propsRecord : Record Props where
  name := "Props"
  fields := [⟨"synthesized", .flag, some false⟩, ⟨"note", .optional .text, some none⟩]
  make := Props.mk

def infoRecord : Record NodeInfo where
  name := "Meta"
  fields := [⟨"pos", .position, some {}⟩, ⟨"props", .props, some {}⟩]
  make := NodeInfo.mk

/-- The last field of every node. -/
abbrev infoField : Field := ⟨"meta", .info, some {}⟩

/-! ## Enumerations of the language -/

def operatorVariants : List (Variant Operator) := bareVariants Operator.tag Operator.all

def kindVariants : List (Variant Kind) := bareVariants Kind.tag Kind.all

def literalTypeVariants : List (Variant LiteralType) :=
  bareVariants LiteralType.tag LiteralType.all

def valueVariants : List (Variant Value) :=
  [.carrying "Integer" .integer .integer, .carrying "Real" .real .real,
   .carrying "Boolean" .flag .boolean, .carrying "String" .text .string]

/-! ## Slots -/

def exprVariants : List (Variant Expr) :=
  [.carrying "Literal" (.tree (.node .literal)) .literal,
   .carrying "Ident" (.tree (.node .ident)) .ident,
   .carrying "Element" (.tree (.node .elementRef)) .element,
   .carrying "Binary" (.tree (.node .binaryOp)) .binary,
   .carrying "Call" (.tree (.node .call)) .call]

def targetVariants : List (Variant AssignTarget) :=
  [.carrying "Ident" (.tree (.node .ident)) .ident,
   .carrying "Element" (.tree (.node .elementRef)) .element]

def entryVariants : List (Variant VarEntry) :=
  [.carrying "Var" (.tree (.node .varDecl)) .var,
   .carrying "Array" (.tree (.node .arrayDecl)) .array]

def stmtVariants : List (Variant Stmt) :=
  [.carrying "Assign" (.tree (.node .assign)) .assign,
   .carrying "Call" (.tree (.node .call)) .call,
   .carrying "If" (.tree (.node .ifStmt)) .ifThen,
   .carrying "While" (.tree (.node .whileStmt)) .whileDo,
   .carrying "For" (.tree (.node .forStmt)) .forTo,
   .carrying "List" (.tree (.node .stmtList)) .list,
   .carrying "Body" (.tree (.node .body)) .body,
   .carrying "Procedure" (.tree (.node .procedureDecl)) .procedure,
   .carrying "Function" (.tree (.node .functionDecl)) .function]

/-! ## Nodes -/

/-- A literal is stored by its text; its value is resolved anew, which may fail. -/
def literalRecord : Record (Except BuildError Literal) where
  name := "RawLiteral"
  fields := [⟨"text", .text, none⟩, infoField]
  make := fun text info => Literal.ofText text info

def identRecord : Record Ident where
  name := Kind.ident.tag
  fields := [⟨"name", .text, none⟩, infoField]
  make := Ident.mk

def elementRefRecord : Record ElementRef where
  name := Kind.elementRef.tag
  fields := [⟨"base", .tree (.node .ident), none⟩, ⟨"index", .tree .expr, none⟩, infoField]
  make := ElementRef.mk

def binaryOpRecord : Record BinaryOp where
  name := Kind.binaryOp.tag
  fields :=
    [⟨"op", .operator, none⟩, ⟨"left", .tree .expr, none⟩, ⟨"right", .tree .expr, none⟩, infoField]
  make := BinaryOp.mk

def identListRecord : Record IdentList where
  name := Kind.identList.tag
  fields := [⟨"idents", .list (.tree (.node .ident)), none⟩, infoField]
  make := IdentList.mk

def typeSpecRecord : Record TypeSpec where
  name := Kind.typeSpec.tag
  fields := [⟨"name", .text, none⟩, infoField]
  make := TypeSpec.mk

def varDeclRecord : Record VarDecl where
  name := Kind.varDecl.tag
  fields :=
    [⟨"idents", .tree (.node .identList), none⟩, ⟨"ty", .tree (.node .typeSpec), none⟩, infoField]
  make := VarDecl.mk

def arrayDeclRecord : Record ArrayDecl where
  name := Kind.arrayDecl.tag
  fields :=
    [⟨"name", .tree (.node .ident), none⟩, ⟨"lower", .tree (.node .literal), none⟩,
     ⟨"upper", .tree (.node .literal), none⟩, ⟨"elem_ty", .tree (.node .typeSpec), none⟩,
     infoField]
  make := ArrayDecl.mk

def varSectionRecord : Record VarSection where
  name := Kind.varSection.tag
  fields := [⟨"entries", .list (.tree .entry), none⟩, infoField]
  make := VarSection.mk

def callRecord : Record Call where
  name := Kind.call.tag
  fields := [⟨"callee", .tree (.node .ident), none⟩, ⟨"args", .list (.tree .expr), none⟩, infoField]
  make := Call.mk

def assignRecord : Record Assign where
  name := Kind.assign.tag
  fields := [⟨"target", .tree .target, none⟩, ⟨"value", .tree .expr, none⟩, infoField]
  make := Assign.mk

def ifRecord : Record If where
  name := Kind.ifStmt.tag
  fields :=
    [⟨"cond", .tree .expr, none⟩, ⟨"then_branch", .tree .stmt, none⟩,
     ⟨"else_branch", .optional (.tree .stmt), some none⟩, infoField]
  make := If.mk

def whileRecord : Record While where
  name := Kind.whileStmt.tag
  fields := [⟨"cond", .tree .expr, none⟩, ⟨"body", .tree .stmt, none⟩, infoField]
  make := While.mk

def forRecord : Record For where
  name := Kind.forStmt.tag
  fields :=
    [⟨"init", .tree .stmt, none⟩, ⟨"bound", .tree .expr, none⟩, ⟨"body", .tree .stmt, none⟩,
     infoField]
  make := For.mk

def stmtListRecord : Record StmtList where
  name := Kind.stmtList.tag
  fields := [⟨"stmts", .list (.tree .stmt), none⟩, infoField]
  make := StmtList.mk

def bodyRecord : Record Body where
  name := Kind.body.tag
  fields := [⟨"list", .tree (.node .stmtList), none⟩, infoField]
  make := Body.mk

def paramsRecord : Record Params where
  name := Kind.params.tag
  fields := [⟨"decls", .list (.tree (.node .varDecl)), none⟩, infoField]
  make := Params.mk

def programRecord : Record Program where
  name := Kind.program.tag
  fields :=
    [⟨"name", .tree (.node .ident), none⟩, ⟨"vars", .tree (.node .varSection), none⟩,
     ⟨"body", .tree (.node .stmtList), none⟩, infoField]
  make := Program.mk

def procedureDeclRecord : Record ProcedureDecl where
  name := Kind.procedureDecl.tag
  fields :=
    [⟨"name", .tree (.node .ident), none⟩, ⟨"params", .tree (.node .params), none⟩,
     ⟨"vars", .tree (.node .varSection), none⟩, ⟨"body", .tree (.node .stmtList), none⟩, infoField]
  make := ProcedureDecl.mk

def functionDeclRecord : Record FunctionDecl where
  name := Kind.functionDecl.tag
  fields :=
    [⟨"name", .tree (.node .ident), none⟩, ⟨"params", .tree (.node .params), none⟩,
     ⟨"return_ty", .tree (.node .typeSpec), none⟩, ⟨"vars", .tree (.node .varSection), none⟩,
     ⟨"body", .tree (.node .stmtList), none⟩, infoField]
  make := FunctionDecl.mk

/-! ## Shapes of trees -/

/-- How a tree is stored. -/
inductive Shape (α : Type) where
  | record (r : Record α)
  /-- A record from whose fields a value cannot always be made. -/
  | checked (r : Record (Except BuildError α))
  | choice (variants : List (Variant α))

/-- How the trees of each type are stored. -/
def TreeType.shape : (t : TreeType) → Shape t.Val
  | .node .literal => .checked literalRecord
  | .node .ident => .record identRecord
  | .node .elementRef => .record elementRefRecord
  | .node .binaryOp => .record binaryOpRecord
  | .node .identList => .record identListRecord
  | .node .typeSpec => .record typeSpecRecord
  | .node .varDecl => .record varDeclRecord
  | .node .arrayDecl => .record arrayDeclRecord
  | .node .varSection => .record varSectionRecord
  | .node .call => .record callRecord
  | .node .assign => .record assignRecord
  | .node .ifStmt => .record ifRecord
  | .node .whileStmt => .record whileRecord
  | .node .forStmt => .record forRecord
  | .node .stmtList => .record stmtListRecord
  | .node .body => .record bodyRecord
  | .node .params => .record paramsRecord
  | .node .program => .record programRecord
  | .node .procedureDecl => .record procedureDeclRecord
  | .node .functionDecl => .record functionDeclRecord
  | .expr => .choice exprVariants
  | .stmt => .choice stmtVariants
  | .target => .choice targetVariants
  | .entry => .choice entryVariants

end Stored
end PascalTree
