/-!
# Records of a reading

While a document is read, a record is kept of the faults that do not stop the reading, and of what
its entities cost, so that nested entities cannot grow without bound.
-/

set_option autoImplicit false

namespace WordStream.Markup

/-- What is noted while a document is read. -/
structure Record where
  size : Nat := 0
  spent : Nat := 0
  faults : Nat := 0
  warnings : Nat := 0
  /-- Whether a fault was noted last, and no warning after it. -/
  faultIsLast : Bool := false
  ids : List String := []
  costs : List (String × Nat) := []
deriving DecidableEq, Repr

def Record.faulty (record : Record) : Bool :=
  record.faults != 0

/-- Computations that keep a record. They fail where a document is malformed. -/
abbrev Reader := StateT Record Option

namespace Reader

/-- The most faults that are noted, and the most warnings. -/
def maxNotes : Nat := 100

/-- Notes a fault that does not stop the reading. -/
def fault : Reader Unit :=
  modify fun record =>
    { record with
      faults := record.faults + 1
      faultIsLast := record.faultIsLast || record.faults < maxNotes }

def require (condition : Bool) : Reader Unit :=
  if condition then return () else fault

def warn : Reader Unit :=
  modify fun record =>
    { record with
      warnings := record.warnings + 1
      faultIsLast := record.faultIsLast && maxNotes ≤ record.warnings }

def isFaulty : Reader Bool := return (← get).faulty

/-- What entities may cost in any document. -/
def freeCost : Nat := 1000000

def useCost : Nat := 20

/-- Pays for the use of an entity of a size. Beyond what is free, entities must not cost more than
five times the size of the document. -/
def pay (size : Nat) : Reader Unit := do
  let record ← get
  let spent := record.spent + size + useCost
  guard (spent ≤ freeCost || spent / 5 ≤ record.size)
  set { record with spent }

end Reader

end WordStream.Markup
