import WordStream.Markup.Parser

/-!
# Relationships

Each part of a package may have a file of relationships beside it, which give targets for ids. The
file of a part is named after the part and kept in a folder of its own.
-/

set_option autoImplicit false

namespace WordStream.Package

open Markup (Attributes Call)

def relationshipsSpace : String := "http://schemas.openxmlformats.org/package/2006/relationships"

def mainDocumentType : String :=
  "http://schemas.openxmlformats.org/officeDocument/2006/relationships/officeDocument"

def dropLastSlashes (path : List Char) : List Char :=
  (path.reverse.dropWhile (· == '/')).reverse

/-- Splits a path into its folder and its last segment. The folder ends without a slash, unless it
is nothing but slashes. -/
def splitPath (path : List Char) : List Char × List Char :=
  let name := (path.reverse.takeWhile (· != '/')).reverse
  let folder := path.take (path.length - name.length)
  (if folder.all (· == '/') then folder else dropLastSlashes folder, name)

/-- Joins a path to the folder that it is in. A path that begins at the root has no folder but that. -/
def joinPath (folder path : List Char) : List Char :=
  if path.head? = some '/' then path
  else if folder.getLast?.all (· == '/') then folder ++ path
  else folder ++ '/' :: path

def relationshipsName (part : String) : String :=
  let (folder, name) := splitPath part.toList
  String.ofList (joinPath (joinPath folder "_rels".toList) (name ++ ".rels".toList))

def relationshipsIn (calls : List Call) : List Attributes :=
  calls.filterMap fun
    | .start tag attributes =>
        if tag = Markup.joinName relationshipsSpace "Relationship" then some attributes else none
    | .finish _ | .data _ => none

/-- The targets that relationships give for their ids; of two for one id the later one holds. A
relationship without an id or a target gives none. -/
def targets (relationships : List Attributes) : Attributes :=
  Attributes.ofList <| relationships.filterMap fun attributes => do
    let id ← attributes.get? "Id"
    let target ← attributes.get? "Target"
    guard !id.isEmpty
    return (id, target)

def targetOfType? (type : String) (relationships : List Attributes) : Option String :=
  (relationships.find? fun attributes => attributes.get? "Type" == some type).bind
    (·.get? "Target")

/-- The relationships in the bytes of a relationship file, unless it is malformed. -/
def relationshipsOf? (parser : Markup.Parser) (bytes : ByteArray) : Option (List Attributes) :=
  (parser.load? bytes).map relationshipsIn

end WordStream.Package
