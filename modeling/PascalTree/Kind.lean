/-!
# Kind — the twenty kinds of nodes

* `Kind.all`: every kind once, in the fixed order of reports;
* `Kind.rank`: the place of a kind among the others, which is its place in `Kind.all`;
* `Kind.name`: how a kind is called in diagnostics and counts;
* `Kind.tag`: how a kind is written in stored documents.
-/

namespace PascalTree

/-- The kind of a node. -/
inductive Kind where
  | literal
  | ident
  | elementRef
  | binaryOp
  | identList
  | typeSpec
  | varDecl
  | arrayDecl
  | varSection
  | call
  | assign
  | ifStmt
  | whileStmt
  | forStmt
  | stmtList
  | body
  | params
  | program
  | procedureDecl
  | functionDecl
  deriving DecidableEq, Inhabited, Repr

namespace Kind

/-- All kinds in their fixed order. -/
def all : List Kind :=
  [.literal, .ident, .elementRef, .binaryOp, .identList, .typeSpec, .varDecl, .arrayDecl,
   .varSection, .call, .assign, .ifStmt, .whileStmt, .forStmt, .stmtList, .body, .params,
   .program, .procedureDecl, .functionDecl]

/-- The position of a kind in `all`. -/
def index (k : Kind) : Nat := all.idxOf k

/-- The place of a kind in the order in which the kinds are declared. -/
def rank (k : Kind) : Nat := k.ctorIdx

/-- The table of all kinds lists them as they are declared. -/
theorem getElem?_all_rank (k : Kind) : all[k.rank]? = some k := by
  cases k <;> rfl

theorem rank_lt (k : Kind) : k.rank < all.length :=
  (List.getElem?_eq_some_iff.1 k.getElem?_all_rank).1

/-- The name of a kind in diagnostics and counts. -/
def name : Kind → String
  | literal => "literal"
  | ident => "identifier"
  | elementRef => "array element"
  | binaryOp => "binary operation"
  | identList => "identifier list"
  | typeSpec => "type"
  | varDecl => "variable declaration"
  | arrayDecl => "array declaration"
  | varSection => "var section"
  | call => "call"
  | assign => "assignment"
  | ifStmt => "if"
  | whileStmt => "while"
  | forStmt => "for"
  | stmtList => "statement list"
  | body => "body"
  | params => "params"
  | program => "program"
  | procedureDecl => "procedure"
  | functionDecl => "function"

/-- The tag of a kind in stored documents, which is also the name of its record there. -/
def tag : Kind → String
  | literal => "Literal"
  | ident => "Ident"
  | elementRef => "ArrayElementRef"
  | binaryOp => "BinaryOp"
  | identList => "IdentList"
  | typeSpec => "TypeSpec"
  | varDecl => "VarDecl"
  | arrayDecl => "ArrayDecl"
  | varSection => "VarsDecl"
  | call => "Call"
  | assign => "Assign"
  | ifStmt => "If"
  | whileStmt => "While"
  | forStmt => "For"
  | stmtList => "StmtList"
  | body => "Body"
  | params => "Params"
  | program => "Program"
  | procedureDecl => "ProcedureDecl"
  | functionDecl => "FunctionDecl"

/-- Expression-like kinds produce a value. -/
def isExpression : Kind → Bool
  | literal | ident | elementRef | binaryOp | call => true
  | _ => false

/-- Every kind that is not expression-like is statement-like. -/
def isStatement (k : Kind) : Bool := !k.isExpression

end Kind

end PascalTree
