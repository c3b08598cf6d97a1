import WordStream.Archive.Field

/-!
# Inflation

Deflated data is a sequence of blocks that are stored, or coded with fixed or transmitted prefix
codes. An inflation takes its data piece by piece and gives as many bytes as there is room for. It
stops where the data is used up, where a byte finds no room, behind the last block, or at a damage,
and goes on from there when it is given more data or more room.
-/

set_option autoImplicit false

namespace WordStream.Archive

inductive Damage where
  | blockType
  | storedLength
  | symbolCount
  | codeLengths
  | repeatedLength
  | noEnd
  | literalLengths
  | distanceLengths
  | literalCode
  | distanceCode
  | distance
deriving DecidableEq, Repr

def Damage.message : Damage → String
  | blockType => "invalid block type"
  | storedLength => "invalid stored block lengths"
  | symbolCount => "too many length or distance symbols"
  | codeLengths => "invalid code lengths set"
  | repeatedLength => "invalid bit length repeat"
  | noEnd => "invalid code -- missing end-of-block"
  | literalLengths => "invalid literal/lengths set"
  | distanceLengths => "invalid distances set"
  | literalCode => "invalid literal/length code"
  | distanceCode => "invalid distance code"
  | distance => "invalid distance too far back"

namespace Inflate

/-- Why something cannot be taken from the data. -/
inductive Halt where
  | hungry
  | damaged (damage : Damage)
deriving DecidableEq, Repr

/-- Takes something from the bits of the data, from a position on. -/
abbrev Take := ReaderT ByteArray (StateT Nat (Except Halt))

def fail {α : Type} (damage : Damage) : Take α := throw (.damaged damage)

def require (condition : Bool) (damage : Damage) : Take Unit :=
  if condition then return else fail damage

/-- Takes the next bit. The bits of a byte are taken from the lowest on. -/
def bit : Take Nat := do
  let data ← read
  let position ← get
  if position / 8 < data.size then
    set (position + 1)
    return byteAt data (position / 8) >>> (position % 8) % 2
  else throw .hungry

/-- Takes a number of so many bits, the lowest first. -/
def bits : (count : Nat) → Take Nat
  | 0 => return 0
  | count + 1 => do
      let low ← bit
      return low + 2 * (← bits count)

def align : Take Unit :=
  modify fun position => (position + 7) / 8 * 8

def maxCodeLength : Nat := 15

/-- A prefix code: the number of codes of each length from one bit up to the longest, and the
symbols in the order of their codes. -/
structure Code where
  counts : List Nat
  symbols : Array Nat
deriving DecidableEq, Repr

namespace Code

/-- Removes the zeros at the end of a list of counts, save the first count. -/
def dropLastZeros : List Nat → List Nat
  | [] => []
  | first :: others => first :: (others.reverse.dropWhile (· == 0)).reverse

/-- The code in which each symbol has the given length; symbols of length zero have no code. -/
def ofLengths (lengths : List Nat) : Code where
  counts :=
    dropLastZeros ((List.range maxCodeLength).map fun length => lengths.count (length + 1))
  symbols :=
    ((List.range maxCodeLength).flatMap fun length =>
      (lengths.zipIdx.filter fun entry => entry.1 == length + 1).map (·.2)).toArray

/-- The number of codes of the greatest length that are left over, and negative if there are too
many codes. -/
def vacancy (code : Code) : Int :=
  code.counts.foldl (fun (free : Int) (count : Nat) => 2 * free - count) 1

/-- Whether a code leaves no sequence of bits over. -/
def isComplete (code : Code) : Bool := code.vacancy == 0

/-- Whether a code is complete, or has one symbol of one bit, or none at all. -/
def isUsable (code : Code) : Bool :=
  code.isComplete || (0 < code.vacancy && code.counts.length ≤ 1)

/-- Takes the code of a symbol bit by bit. `first` is the first code of the length reached and
`index` the place of its symbol. -/
def symbolFrom (symbols : Array Nat) (damage : Damage) :
    (counts : List Nat) → (value first index : Nat) → Take Nat
  | [], _, _, _ => fail damage
  | count :: counts, value, first, index => do
      let value := value + (← bit)
      if value < first + count then
        match symbols[index + (value - first)]? with
        | some symbol => return symbol
        | none => fail damage
      else symbolFrom symbols damage counts (2 * value) (2 * (first + count)) (index + count)

def symbol (code : Code) (damage : Damage) : Take Nat :=
  symbolFrom code.symbols damage code.counts 0 0 0

end Code

/-- The least length, and the number of extra bits, of the symbols from 257 on. -/
def lengthRanges : List (Nat × Nat) :=
  [(3, 0), (4, 0), (5, 0), (6, 0), (7, 0), (8, 0), (9, 0), (10, 0), (11, 1), (13, 1), (15, 1),
   (17, 1), (19, 2), (23, 2), (27, 2), (31, 2), (35, 3), (43, 3), (51, 3), (59, 3), (67, 4),
   (83, 4), (99, 4), (115, 4), (131, 5), (163, 5), (195, 5), (227, 5), (258, 0)]

/-- The least distance, and the number of extra bits, of the distance symbols. -/
def distanceRanges : List (Nat × Nat) :=
  [(1, 0), (2, 0), (3, 0), (4, 0), (5, 1), (7, 1), (9, 2), (13, 2), (17, 3), (25, 3), (33, 4),
   (49, 4), (65, 5), (97, 5), (129, 6), (193, 6), (257, 7), (385, 7), (513, 8), (769, 8),
   (1025, 9), (1537, 9), (2049, 10), (3073, 10), (4097, 11), (6145, 11), (8193, 12), (12289, 12),
   (16385, 13), (24577, 13)]

def ranged (ranges : List (Nat × Nat)) (symbol : Nat) (damage : Damage) : Take Nat :=
  match ranges[symbol]? with
  | some (least, extra) => return least + (← bits extra)
  | none => fail damage

structure Codes where
  literals : Code
  distances : Code
deriving DecidableEq, Repr

inductive Item where
  | literal (byte : UInt8)
  | again (distance length : Nat)
  | stop
deriving DecidableEq, Repr

def Codes.item (codes : Codes) : Take Item := do
  let symbol ← codes.literals.symbol .literalCode
  if symbol < 256 then return .literal symbol.toUInt8
  else if symbol = 256 then return .stop
  else
    let length ← ranged lengthRanges (symbol - 257) .literalCode
    let distance ← ranged distanceRanges (← codes.distances.symbol .distanceCode) .distanceCode
    return .again distance length

def fixedLiterals : Code :=
  .ofLengths
    (List.replicate 144 8 ++ List.replicate 112 9 ++ List.replicate 24 7 ++ List.replicate 8 8)

def fixedCodes : Codes where
  literals := fixedLiterals
  distances := .ofLengths (List.replicate 32 5)

/-- The order in which the lengths of the code of code lengths are transmitted. -/
def lengthOrder : List Nat :=
  [16, 17, 18, 0, 8, 7, 9, 6, 10, 5, 11, 4, 12, 3, 13, 2, 14, 1, 15]

def threeBits : (count : Nat) → Take (List Nat)
  | 0 => return []
  | count + 1 => do
      let first ← bits 3
      return first :: (← threeBits count)

/-- The code of code lengths. Where no length has a code, every bit stands for the length zero. -/
def lengthCodeOf (lengths : List Nat) : Code :=
  if lengths.all (· == 0) then { counts := [2], symbols := #[0, 0] } else .ofLengths lengths

/-- Takes code lengths until there are as many as wanted. Those taken so far are held in reverse. A
symbol from 16 on repeats a length. -/
def codeLengths (code : Code) (wanted : Nat) : (rounds : Nat) → (done : List Nat) → Take (List Nat)
  | 0, done => return done.reverse
  | rounds + 1, done => do
      if wanted ≤ done.length then return done.reverse
      else
        let symbol ← code.symbol .codeLengths
        if symbol < 16 then codeLengths code wanted rounds (symbol :: done)
        else
          let count ←
            if symbol = 16 then (3 + ·) <$> bits 2
            else if symbol = 17 then (3 + ·) <$> bits 3
            else (11 + ·) <$> bits 7
          require (symbol != 16 || !done.isEmpty) .repeatedLength
          let repeated := if symbol = 16 then done.head?.getD 0 else 0
          require (done.length + count ≤ wanted) .repeatedLength
          codeLengths code wanted rounds (List.replicate count repeated ++ done)

def transmittedCodes : Take Codes := do
  let literalCount := 257 + (← bits 5)
  let distanceCount := 1 + (← bits 5)
  let orderCount := 4 + (← bits 4)
  require (literalCount ≤ 286 && distanceCount ≤ 30) .symbolCount
  let ordered := lengthOrder.zip (← threeBits orderCount)
  let lengthCode := lengthCodeOf ((List.range 19).map fun symbol => (ordered.lookup symbol).getD 0)
  require lengthCode.isComplete .codeLengths
  let wanted := literalCount + distanceCount
  let lengths ← codeLengths lengthCode wanted wanted []
  require ((lengths[256]?).getD 0 != 0) .noEnd
  let literals := Code.ofLengths (lengths.take literalCount)
  require literals.isUsable .literalLengths
  let distances := Code.ofLengths (lengths.drop literalCount)
  require distances.isUsable .distanceLengths
  return { literals, distances }

/-- How far an inflation has come within its block. -/
inductive Stage where
  /-- Before a block, or behind the last one. -/
  | between
  /-- Within a stored block, of which so many bytes are left. -/
  | stored (left : Nat)
  | coded (codes : Codes)
  | literal (codes : Codes) (byte : UInt8)
  | again (codes : Codes) (distance length : Nat)
deriving DecidableEq, Repr

/-- Takes the beginning of a block, and tells whether it is the last one. -/
def block : Take (Bool × Stage) := do
  let last := (← bit) = 1
  match ← bits 2 with
  | 0 => do
      align
      let length ← bits 16
      let complement ← bits 16
      require (length + complement = 0xFFFF) .storedLength
      return (last, .stored length)
  | 1 => return (last, .coded fixedCodes)
  | 2 => return (last, .coded (← transmittedCodes))
  | _ => fail .blockType

def giveAgain (distance : Nat) : (length : Nat) → (output : ByteArray) → ByteArray
  | 0, output => output
  | length + 1, output =>
      giveAgain distance length
        (output.push (byteAt output (output.size - distance)).toUInt8)

end Inflate

open Inflate in
structure Inflation where
  data : ByteArray := .empty
  position : Nat := 0
  output : ByteArray := .empty
  /-- Whether the block reached is the last one. -/
  last : Bool := false
  stage : Stage := .between
  /-- Whether all data is used up, though something is begun that needs more. -/
  hungry : Bool := false

namespace Inflation

open Inflate

def supply (inflation : Inflation) (data : ByteArray) : Inflation :=
  { inflation with data := inflation.data ++ data, hungry := false }

def finished (inflation : Inflation) : Bool :=
  inflation.last && inflation.stage == .between

/-- The number of bytes of the data of which no bit was needed. -/
def unused (inflation : Inflation) : Nat :=
  if inflation.hungry then 0 else inflation.data.size - (inflation.position + 7) / 8

inductive Turn where
  | onwards (inflation : Inflation)
  | stop (inflation : Inflation)
  | damaged (inflation : Inflation) (damage : Damage)

/-- Takes something from the data and goes on with it. What is begun and not finished where the
data is used up, is taken again when there is more. -/
def taking {α : Type} (inflation : Inflation) (take : Take α) (go : Inflation → α → Inflation) :
    Turn :=
  match (take.run inflation.data).run inflation.position with
  | .ok (value, position) => .onwards (go { inflation with position } value)
  | .error .hungry => .stop { inflation with hungry := true }
  | .error (.damaged damage) => .damaged inflation damage

def writing (inflation : Inflation) (write : ByteArray → ByteArray) (stage : Stage) : Inflation :=
  match inflation with
  | { data, position, output, last, hungry, .. } =>
      { data, position, output := write output, last, stage, hungry }

/-- Copies the bytes of a stored block, as many as there are and find room. -/
def copy (inflation : Inflation) (room left : Nat) : Turn :=
  let begin := inflation.position / 8
  let count := min (min left room) (inflation.data.size - begin)
  if room = 0 then .stop inflation
  else if count = 0 then .stop { inflation with hungry := true }
  else
    .onwards
      (({ inflation with position := 8 * (begin + count) }).writing
        (· ++ inflation.data.extract begin (begin + count)) (.stored (left - count)))

/-- One step, where the output may not grow beyond a limit. -/
def step (limit : Nat) (inflation : Inflation) : Turn :=
  let room := limit - inflation.output.size
  match inflation.stage with
  | .between =>
      if inflation.last then .stop inflation
      else
        inflation.taking block fun inflation (last, stage) => { inflation with last, stage }
  | .stored 0 => .onwards { inflation with stage := .between }
  | .stored (left + 1) => inflation.copy room (left + 1)
  | .coded codes =>
      inflation.taking codes.item fun inflation item =>
        match item with
        | .literal byte => { inflation with stage := .literal codes byte }
        | .again distance length => { inflation with stage := .again codes distance length }
        | .stop => { inflation with stage := .between }
  | .literal codes byte =>
      if room = 0 then .stop inflation
      else
        .onwards (inflation.writing (·.push byte) (.coded codes))
  | .again codes distance length =>
      if room = 0 then .stop inflation
      else if inflation.output.size < distance then .damaged inflation .distance
      else
        .onwards
          (inflation.writing (giveAgain distance (min length room))
            (if length ≤ room then .coded codes else .again codes distance (length - room)))

/-- Takes steps until one stops or meets a damage. -/
def steps (limit : Nat) : (rounds : Nat) → Inflation → Inflation × Option Damage
  | 0, inflation => (inflation, none)
  | rounds + 1, inflation =>
      match inflation.step limit with
      | .onwards later => steps limit rounds later
      | .stop stopped => (stopped, none)
      | .damaged reached damage => (reached, some damage)

/-- Inflates as far as possible while the output does not grow beyond a limit, and tells the damage
met, if any. Of two steps one takes a bit at least, so that the rounds suffice. -/
def run (limit : Nat) (inflation : Inflation) : Inflation × Option Damage :=
  steps limit (16 * (inflation.data.size + 2)) inflation

end Inflation

end WordStream.Archive
