/-!
Values: trees of named fields, the common shape of everything that a written snapshot holds.
Each reader takes a value apart and refuses whatever is of another kind or out of range.
-/

namespace GamePak

inductive Value where
  /-- An optional value that is not there. -/
  | absent
  /-- A value without content. -/
  | unit
  | flag (b : Bool)
  | int (n : Int)
  | text (s : String)
  /-- The name of one of several alternatives. -/
  | name (s : String)
  | list (items : List Value)
  /-- A value of one of several kinds, under the tag of its kind. -/
  | tagged (tag : String) (v : Value)
  | record (fields : List (String × Value))
  deriving Inhabited

namespace Value

def nat (n : Nat) : Value := int n

def ofOption {α : Type} (write : α → Value) : Option α → Value
  | some a => write a
  | none => absent

/-- A natural number below a bound. -/
def nat? (bound : Nat) : Value → Option Nat
  | int n => if 0 ≤ n ∧ n < bound then some n.toNat else none
  | _ => none

def byte? (v : Value) : Option UInt8 := (v.nat? 256).map UInt8.ofNat

def word? (v : Value) : Option UInt16 := (v.nat? 65536).map UInt16.ofNat

/-- A size or a bank number, up to 64 bits. -/
def size? (v : Value) : Option Nat := v.nat? (1 <<< 64)

def signedWord? : Value → Option Int
  | int n => if -32768 ≤ n ∧ n < 32768 then some n else none
  | _ => none

def flag? : Value → Option Bool
  | flag b => some b
  | _ => none

def text? : Value → Option String
  | text s => some s
  | _ => none

def name? : Value → Option String
  | name s => some s
  | _ => none

def list? {α : Type} (read : Value → Option α) : Value → Option (List α)
  | list items => items.mapM read
  | _ => none

/-- A list of a fixed length. -/
def vector? {α : Type} (n : Nat) (read : Value → Option α) (v : Value) : Option (Vector α n) := do
  let items ← v.list? read
  if h : items.toArray.size = n then some ⟨items.toArray, h⟩ else none

/-- A value that may be missing. -/
def optional? {α : Type} (read : Value → Option α) : Value → Option (Option α)
  | absent => some none
  | v => (read v).map some

def field? (key : String) : Value → Option Value
  | record fields => fields.lookup key
  | _ => none

end Value

end GamePak
