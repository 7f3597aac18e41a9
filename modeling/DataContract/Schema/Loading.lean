/-
# Loading documents

A declaration and a data record are each kept in a file that holds one document. A
document that counts as false, such as an empty one, is the empty declaration.
-/

import DataContract.Schema.Document
import DataContract.Yaml.Document

set_option autoImplicit false

namespace DataContract

/-- What a file is loaded as. -/
inductive FileRole where
  | schema
  | data
deriving DecidableEq

/-- The wording of a missing file. -/
def FileRole.missingText (role : FileRole) (path : String) : String :=
  match role with
  | .schema => "Schema file not found: " ++ path
  | .data => "Data file not found: " ++ path

/-- Why a file cannot be loaded. -/
inductive LoadFault where
  | missing (role : FileRole) (path : String)
  | unreadable (e : Yaml.Error)
  | declaration (e : SchemaError)

/-- A reader of documents: it gives the value of a text, and puts what its parts share
into cells. -/
abbrev Loader := String → Store → Except Yaml.Error (Value × Store)

/-- Reads the document in a file. -/
def loadFile (load : Loader) (role : FileRole) (path : String) (content : Option String)
    (st : Store) : Except LoadFault (Value × Store) :=
  match content with
  | none => .error (.missing role path)
  | some text => (load text st).mapError .unreadable

/-- Loads a data record. -/
def loadData (load : Loader) (path : String) (content : Option String) (st : Store) :
    Except LoadFault (Value × Store) :=
  loadFile load .data path content st

/-- The declaration in a document. -/
def declarationOf (document : Value) : Except SchemaError Entries :=
  Document.parse Document.defaultMetaOrder
    (if document.truthy then document else .object [])

/-- Loads a declaration. -/
def loadDeclaration (load : Loader) (path : String) (content : Option String) :
    Except LoadFault Entries := do
  let (document, st) ← loadFile load .schema path content Store.empty
  (declarationOf (st.plain document)).mapError .declaration

end DataContract
