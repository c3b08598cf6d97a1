import WordStream.Markup.Content
import WordStream.Markup.Encoding

/-!
# Documents

A document that is there as a whole is loaded: its declaration, what stands before its root element,
the element, and what stands behind it. It is refused if it is malformed, and if a fault is what was
noted last.
-/

set_option autoImplicit false

namespace WordStream.Markup

namespace Document

def surroundings : Scan Unit :=
  Scan.repeating
    (fun _ => do
      Scan.space
      if ← Scan.taken "<!--" then some <$> comment
      else if ← Scan.taken "<?" then some <$> instruction
      else return none)
    ()

def prolog (standalone : Bool) : Scan Declarations := do
  surroundings
  if ← Scan.taken "<!DOCTYPE" then
    let (declared, more) ← Doctype.head { standalone }
    let declarations ← if more then Doctype.subset declared else pure declared
    surroundings
    return declarations
  else return { standalone }

def element (setting : Setting) : Scan Progress := do
  Scan.exact "<"
  let opened ← Content.startTag setting {}
  Scan.repeating
    (fun progress => do
      if progress.elements.isEmpty then return none
      match ← Content.nextPart setting progress with
      | some later => return some later
      | none => failure)
    opened

/-- Takes a document after its declaration. In a document with faults the root element need not be
the last. -/
def scan (declaration : Declaration) : Scan (List Call) := do
  let declarations ← prolog declaration.standalone
  let progress ← element { mode := .loading, declarations }
  surroundings
  guard ((← Scan.rest).isEmpty || (← Reader.isFaulty))
  return progress.calls.reverse

def read (encodings : Encodings) (bytes : List UInt8) : Reader (List Call) := do
  match ← Opening.read encodings true bytes with
  | none => failure
  | some opening =>
      let rest ← liftM opening.decoder.finish?
      let (calls, _) ← (scan opening.declaration).run (opening.text ++ rest)
      return calls

end Document

/-- The calls that tell the document in some bytes, unless it is malformed. -/
def load? (encodings : Encodings) (bytes : ByteArray) : Option (List Call) :=
  match (Document.read encodings bytes.data.toList).run { size := bytes.size } with
  | some (calls, record) => if record.faultIsLast then none else some calls
  | none => none

end WordStream.Markup
