import PascalTree.Tree.Expr

/-!
# Decl — declarations of variables, arrays and parameters
-/

namespace PascalTree

/-- The name of a type. -/
structure TypeSpec where
  name : String
  info : NodeInfo := {}
  deriving DecidableEq, Inhabited

/-- Identifiers declared together: `a, b, c`. -/
structure IdentList where
  idents : List Ident
  info : NodeInfo := {}
  deriving DecidableEq, Inhabited

/-- Variables or parameters of one type: `a, b: integer`. -/
structure VarDecl where
  idents : IdentList
  type : TypeSpec
  info : NodeInfo := {}
  deriving DecidableEq, Inhabited

/-- An array variable: `name: array [lower .. upper] of elemType`. -/
structure ArrayDecl where
  name : Ident
  lower : Literal
  upper : Literal
  elemType : TypeSpec
  info : NodeInfo := {}
  deriving DecidableEq

namespace ArrayDecl

def equal (a b : ArrayDecl) : Bool :=
  a.name == b.name && a.lower == b.lower && a.upper == b.upper && a.elemType == b.elemType &&
    a.info == b.info

instance : BEq ArrayDecl := ⟨equal⟩

end ArrayDecl

/-- One entry of a `var` section. -/
inductive VarEntry where
  | var (node : VarDecl)
  | array (node : ArrayDecl)

namespace VarEntry

def equal : VarEntry → VarEntry → Bool
  | var a, var b => a == b
  | array a, array b => a == b
  | _, _ => false

instance : BEq VarEntry := ⟨equal⟩

end VarEntry

/-- A `var` section. -/
structure VarSection where
  entries : List VarEntry
  info : NodeInfo := {}

namespace VarSection

def equal (a b : VarSection) : Bool := a.entries == b.entries && a.info == b.info

instance : BEq VarSection := ⟨equal⟩

end VarSection

/-- The formal parameters of a routine. -/
structure Params where
  decls : List VarDecl
  info : NodeInfo := {}
  deriving DecidableEq, Inhabited

namespace Params

/-- The parameters of a routine declared without parentheses. -/
def empty : Params := { decls := [], info := .synthesized }

def isEmpty (n : Params) : Bool := n.decls.isEmpty

end Params

end PascalTree
