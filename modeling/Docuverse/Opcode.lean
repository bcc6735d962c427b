import Docuverse.Text.Decimal

namespace Docuverse

inductive Opcode where
  | insert
  | retrieveVSpanSet
  | vcopy
  | rearrange
  | retrieveContents
  | compareVersions
  | createDocument
  | remove
  | createVersion
  | retrieveVSpan
  | quit
  | followLink
  | findDocuments
  | createLink
  | retrieveEndsets
  | findLinks
  | account
  | openDocument
  | closeDocument
  | createNode
  | dumpState
  deriving DecidableEq, Repr

namespace Opcode

/-- In ascending order of their codes. -/
def all : List Opcode :=
  [insert, retrieveVSpanSet, vcopy, rearrange, retrieveContents, compareVersions, createDocument,
    remove, createVersion, retrieveVSpan, quit, followLink, findDocuments, createLink,
    retrieveEndsets, findLinks, account, openDocument, closeDocument, createNode, dumpState]

def code : Opcode → UInt64
  | insert => 0
  | retrieveVSpanSet => 1
  | vcopy => 2
  | rearrange => 3
  | retrieveContents => 5
  | compareVersions => 10
  | createDocument => 11
  | remove => 12
  | createVersion => 13
  | retrieveVSpan => 14
  | quit => 16
  | followLink => 18
  | findDocuments => 22
  | createLink => 27
  | retrieveEndsets => 28
  | findLinks => 30
  | account => 34
  | openDocument => 35
  | closeDocument => 36
  | createNode => 38
  | dumpState => 39

def name : Opcode → String
  | insert => "insert"
  | retrieveVSpanSet => "retrieve_vspanset"
  | vcopy => "vcopy"
  | rearrange => "rearrange"
  | retrieveContents => "retrieve_contents"
  | compareVersions => "compare_versions"
  | createDocument => "create_document"
  | remove => "remove"
  | createVersion => "create_version"
  | retrieveVSpan => "retrieve_vspan"
  | quit => "quit"
  | followLink => "follow_link"
  | findDocuments => "find_documents"
  | createLink => "create_link"
  | retrieveEndsets => "retrieve_endsets"
  | findLinks => "find_links"
  | account => "account"
  | openDocument => "open_document"
  | closeDocument => "close_document"
  | createNode => "create_node"
  | dumpState => "dump_state"

def ofCode? (code : UInt64) : Option Opcode := all.find? fun op => op.code == code

def display (op : Opcode) : String := s!"{op.name} ({Decimal.numeral op.code})"

theorem ofCode?_code (op : Opcode) : ofCode? op.code = some op := by cases op <;> rfl

end Opcode
end Docuverse
