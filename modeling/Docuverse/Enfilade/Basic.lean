import Docuverse.Address.Basic

namespace Docuverse.Enfilade

/-- The two trees that a back end can show. -/
inductive Store where
  | granf
  | spanf
  deriving DecidableEq, Repr

/-- What a tree is for: contents, the arrangement of a document, or an index of spans. -/
inductive Flavour where
  | gran
  | poom
  | span
  deriving DecidableEq, Repr

namespace Flavour

def code : Flavour → UInt64
  | gran => 1
  | poom => 2
  | span => 3

def ofCode? (code : UInt64) : Option Flavour := [gran, poom, span].find? fun f => f.code == code

end Flavour

/-- What the back end says of every crum. -/
structure Label where
  depth : UInt64
  height : UInt64
  flavour : Flavour
  widths : List Tumbler
  displacements : List Tumbler
  deriving DecidableEq, Repr

/-- A node of a tree. A crum has others below it, or it is at the bottom and then names a home
document, holds text or stands for an orgl, whose own tree may be in memory. -/
inductive Crum where
  | interior (label : Label) (children : List Crum)
  | home (label : Label) (doc : Address)
  | text (label : Label) (text : String)
  | orgl (label : Label) (inMemory : Bool) (tree : Option Crum)

namespace Crum

def label : Crum → Label
  | interior label _ => label
  | home label _ => label
  | text label _ => label
  | orgl label _ _ => label

def children : Crum → List Crum
  | interior _ children => children
  | _ => []

def isBottom : Crum → Bool
  | interior .. => false
  | _ => true

mutual

/-- The number of crums, those of orgls included. -/
def count : Crum → Nat
  | interior _ children => 1 + countAll children
  | home .. => 1
  | text .. => 1
  | orgl _ _ none => 1
  | orgl _ _ (some tree) => 1 + tree.count

def countAll : List Crum → Nat
  | [] => 0
  | crum :: crums => crum.count + countAll crums

end

end Crum

/-- A tree as a back end shows it; a back end without a tree shows no root. -/
structure Dump where
  store : Store
  root : Option Crum

namespace Dump

def count (dump : Dump) : Nat := dump.root.elim 0 Crum.count

end Dump
end Docuverse.Enfilade
