import GamePak.Value
import GamePak.Value.Atom

/-!
Readers: what takes a value of one kind off the front of a byte string. A reader knows which kind it
expects. A value that is not there, whether it is written so or the bytes end before it, is zero,
false or empty; the name of a field or of an alternative has to be there.

Everything is read in the order in which it stands, since a symbol gets its number where it is met.
-/

namespace GamePak

/-- What is left to be read, and the symbols met so far. -/
structure Source where
  bytes : List UInt8
  symbols : Array String

abbrev Reader := StateT Source (Except ReadError)

namespace Reader

def malformed {α : Type} : Reader α := fun _ => .error .malformed

def next : Reader Atom := fun src =>
  match Atom.read src.bytes with
  | .error e => .error e
  | .ok (a, rest) => .ok (a, { src with bytes := rest })

/-- The next atom, which stays where it is. -/
def peek : Reader Atom := fun src =>
  match Atom.read src.bytes with
  | .error e => .error e
  | .ok (a, _) => .ok (a, src)

/-! ## Names and text -/

def string? (bytes : List UInt8) : Option String := String.fromUTF8? ⟨bytes.toArray⟩

/-- What an atom spells, if it is a text or a symbol. -/
def spelling (a : Atom) : Reader String := fun src =>
  match a with
  | .text bytes =>
    match string? bytes with
    | some s => .ok (s, src)
    | none => .error .malformed
  | .symbol bytes =>
    match string? bytes with
    | some s => .ok (s, { src with symbols := src.symbols.push s })
    | none => .error .malformed
  | .reference id =>
    match src.symbols[id]? with
    | some s => .ok (s, src)
    | none => .error .malformed
  | _ => .error .malformed

/-- The first atom that is not a mark. -/
def readUnmarked (bytes : List UInt8) : Except ReadError (Atom × List UInt8) :=
  match _h : Atom.read bytes with
  | .ok (.named, rest) => readUnmarked rest
  | r => r
termination_by bytes.length
decreasing_by exact Atom.length_read _h (by decide)

/-- The symbol or text that an atom stands for where a text is expected. A flag or the mark of a map
is then taken for a symbol with the same argument, so that bytes of it may follow. -/
def readSpelled (a : Atom) (bytes : List UInt8) : Except ReadError (Atom × List UInt8) :=
  match a.specialArgument? with
  | some argument => Atom.readSymbol argument bytes
  | none => .ok (a, bytes)

/-- A text, also one that is marked as a name; a unit and a value that is not there are the empty
text. -/
def text : Reader String := fun src =>
  match readUnmarked src.bytes with
  | .error e => .error e
  | .ok (.unit, rest) | .ok (.absent, rest) => .ok ("", { src with bytes := rest })
  | .ok (a, rest) =>
    match readSpelled a rest with
    | .error e => .error e
    | .ok (a, rest) => spelling a { src with bytes := rest }

/-- The name of one of the alternatives, with or without the mark. -/
def name (alternatives : List String) : Reader String := do
  if (← peek) = .named then discard next
  let s ← spelling (← next)
  if alternatives.contains s then return s else malformed

/-! ## Numbers -/

/-- An integer in a range. It is refused if it is held in a larger word than the range needs, even
where its value would fit. -/
def integer (size : Nat) (least bound : Int) : Reader Int := do
  match ← next with
  | .int held n => if held ≤ size ∧ least ≤ n ∧ n < bound then return n else malformed
  | .unit | .absent => return 0
  | _ => malformed

/-- A flag, or a number other than zero. -/
def flag : Reader Bool := do
  match ← next with
  | .flag b => return b
  | .int _ n => return n ≠ 0
  | .unit | .absent => return false
  | _ => malformed

/-! ## Lists and maps -/

/-- Repeats a step. -/
def times {β : Type} (step : β → Reader β) : Nat → β → Reader β
  | 0, b => return b
  | n + 1, b => do times step n (← step b)

/-- Repeats a step up to the end of a map that says where it ends. Each step takes up bytes, so that
their number bounds the steps. -/
def untilClosed {β : Type} (step : β → Reader β) : Nat → β → Reader β
  | 0, _ => malformed
  | bound + 1, b => do
    if (← peek) = .closeMap then
      discard next
      return b
    else untilClosed step bound (← step b)

/-- The number of items of a list that begins here. -/
def listLength : Reader Nat := do
  match ← next with
  | .list length => return length
  | .unit | .absent => return 0
  | _ => malformed

def items (n : Nat) (item : Reader Value) : Reader (List Value) := do
  return (← times (fun met => do return (← item) :: met) n []).reverse

def list (item : Reader Value) : Reader Value := do
  return .list (← items (← listLength) item)

/-- A list of a fixed length. What a longer list holds beyond it is left to be read. -/
def vector (length : Nat) (item : Reader Value) : Reader Value := do
  let written ← listLength
  let found ← items (min written length) item
  if written < length then malformed else return .list found

/-- How far a map goes. -/
inductive Extent where
  | counted (entries : Nat)
  | closed

def extent : Reader Extent := do
  match ← next with
  | .map length => return .counted length
  | .openMap => return .closed
  | .unit | .absent => return .counted 0
  | _ => malformed

/-- No entry follows. -/
def isEmpty : Extent → Reader Bool
  | .counted n => return n = 0
  | .closed => return (← peek) = .closeMap

/-- Repeats a step for each entry of a map. -/
def entries {β : Type} (step : β → Reader β) (init : β) : Reader β := do
  match ← extent with
  | .counted n => times step n init
  | .closed => untilClosed step ((← get).bytes.length + 1) init

/-! ## Skipping -/

/-- What is left of values that are passed over. -/
inductive Pending where
  | values (n : Nat)
  /-- Entries up to the end of a map. -/
  | entries

/-- What an atom is followed by. -/
def contents : Atom → List Pending
  | .list length => [.values length]
  | .map length => [.values (2 * length)]
  | .named => [.values 2]
  | .openMap => [.entries]
  | _ => []

/-- The symbols once an atom has been passed over; a reference has to name one of them. -/
def symbolsAfter? (symbols : Array String) : Atom → Option (Array String)
  | .symbol bytes => (string? bytes).map symbols.push
  | .reference id => if id < symbols.size then some symbols else none
  | _ => some symbols

/-- Passes over everything that is pending. Past the end of the bytes any number of values is
found, but never the end of a map. -/
def skipFrom (pending : List Pending) (symbols : Array String) (bytes : List UInt8) :
    Except ReadError Source :=
  match pending, bytes with
  | [], bytes => .ok { bytes, symbols }
  | .values _ :: later, [] => skipFrom later symbols []
  | .entries :: _, [] => .error .malformed
  | .values 0 :: later, b :: bytes => skipFrom later symbols (b :: bytes)
  | .values (n + 1) :: later, b :: bytes =>
    match _h : Atom.read (b :: bytes) with
    | .error e => .error e
    | .ok (.closeMap, _) => .error .malformed
    | .ok (a, rest) =>
      match symbolsAfter? symbols a with
      | none => .error .malformed
      | some symbols => skipFrom (contents a ++ .values n :: later) symbols rest
  | .entries :: later, b :: bytes =>
    match _h : Atom.read (b :: bytes) with
    | .error e => .error e
    | .ok (.closeMap, rest) => skipFrom later symbols rest
    | .ok (a, rest) =>
      match symbolsAfter? symbols a with
      | none => .error .malformed
      | some symbols => skipFrom (contents a ++ .values 1 :: .entries :: later) symbols rest
termination_by (bytes.length, pending.length)
decreasing_by
  · exact Prod.Lex.right _ (Nat.lt_succ_self _)
  · exact Prod.Lex.right _ (Nat.lt_succ_self _)
  · exact Prod.Lex.left _ _ (Nat.lt_succ_of_le (Atom.length_read_cons _h))
  · exact Prod.Lex.left _ _ (Nat.lt_succ_of_le (Atom.length_read_cons _h))
  · exact Prod.Lex.left _ _ (Nat.lt_succ_of_le (Atom.length_read_cons _h))

/-- Passes over one value of any kind. -/
def skip : Reader Unit := fun src =>
  match skipFrom [.values 1] src.symbols src.bytes with
  | .error e => .error e
  | .ok src => .ok ((), src)

/-! ## Records -/

structure Field where
  name : String
  read : Reader Value
  /-- What a missing field reads as. -/
  missing? : Option Value

/-- One entry of a record, added to those met before it. A field that is not known is passed over,
and one that occurs twice is refused. -/
def entry (fields : List Field) (met : List (String × Value)) :
    Reader (List (String × Value)) := do
  let key ← spelling (← next)
  match fields.find? (·.name == key) with
  | none => do
    skip
    return met
  | some field =>
    if (met.lookup key).isSome then malformed
    else return (key, ← field.read) :: met

/-- All fields in their own order. -/
def complete? (fields : List Field) (met : List (String × Value)) :
    Option (List (String × Value)) :=
  fields.mapM fun field => ((met.lookup field.name).or field.missing?).map (field.name, ·)

def record (fields : List Field) : Reader Value := do
  match complete? fields (← entries (entry fields) []) with
  | some found => return .record found
  | none => malformed

/-- A value under the tag of its kind. It is the first entry of a map, and the only one that is
read here. -/
def tagged (alternatives : List Field) : Reader Value := do
  if ← isEmpty (← extent) then malformed
  else
    let tag ← text
    match alternatives.find? (·.name == tag) with
    | none => malformed
    | some kind => return .tagged tag (← kind.read)

end Reader

end GamePak
