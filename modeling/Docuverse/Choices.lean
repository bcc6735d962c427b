namespace Docuverse

/-- How a document is to be opened. -/
inductive Access where
  | readOnly
  | readWrite
  deriving DecidableEq, Repr

def Access.code : Access → UInt64
  | readOnly => 1
  | readWrite => 2

/-- What to do about a document that someone else has open: give up, open a copy, or open a copy in
any case. -/
inductive CopyMode where
  | conflictFail
  | conflictCopy
  | alwaysCopy
  deriving DecidableEq, Repr

def CopyMode.code : CopyMode → UInt64
  | conflictFail => 1
  | conflictCopy => 2
  | alwaysCopy => 3

/-- The ends of a link. -/
inductive LinkEnd where
  | source
  | target
  | type
  deriving DecidableEq, Repr

namespace LinkEnd

def code : LinkEnd → UInt64
  | source => 1
  | target => 2
  | type => 3

def name : LinkEnd → String
  | source => "Source"
  | target => "Target"
  | type => "Type"

end LinkEnd

end Docuverse
