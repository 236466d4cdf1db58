import MapAlgebra.Library.Binding

namespace MapAlgebra.Library

-- A library that computes nothing. It writes down how it is called, hands out addresses one
-- after the other, and returns what it was told to return.
structure Recording where
  next : Address
  planned : List (String × List Int)
  calls : List String
  holds : List (Address × Int)
deriving Repr

namespace Recording

def empty : Recording := ⟨16, [], [], []⟩

-- Starts writing down anew.
def cleared (recording : Recording) : Recording := { recording with calls := [], holds := [] }

-- Has the next call of a function return something.
def plan (recording : Recording) (symbol : String) (returns : List Int) : Recording :=
  { recording with planned := recording.planned ++ [(symbol, returns)] }

def note (recording : Recording) (call : Call) : Recording :=
  { recording with calls := recording.calls ++ [call.text] }

-- Changes the count of handles that were taken on a node.
def count (recording : Recording) (node : Address) (change : Int) : Recording :=
  let old := (recording.holds.lookup node).getD 0
  { recording with holds := (node, old + change) :: recording.holds.filter (·.1 ≠ node) }

-- The counts that are not zero, by address.
def netHolds (recording : Recording) : List (Address × Int) :=
  (recording.holds.filter (·.2 ≠ 0)).mergeSort fun a b => a.1 ≤ b.1

-- Uses up what was planned for a function.
def takePlanned (recording : Recording) (symbol : String) : Option (List Int) × Recording :=
  match recording.planned.findIdx? (·.1 = symbol) with
  | some index =>
      ((recording.planned[index]?).map (·.2),
        { recording with planned := recording.planned.eraseIdx index })
  | none => (none, recording)

-- Writes a call down and says what was planned for it.
def answer (call : Call) (recording : Recording) : Option (List Int) × Recording :=
  (recording.note call).takePlanned call.symbol

def nodeArgument (call : Call) : Address :=
  match call.arguments with
  | .node address :: _ => address
  | _ => Address.null

def returnsNode (call : Call) (recording : Recording) : Address × Recording :=
  match recording.answer call with
  | (some (address :: _), recording) => (address.toNat, recording)
  | (_, recording) => (recording.next, { recording with next := recording.next + 16 })

def usualInt (call : Call) : Int :=
  match call.symbol with
  | "nodeid" => (nodeArgument call / 16 : Nat)
  | "datatype" => 1
  | "numdim" => 6
  | "memorder" => 3
  | _ => 0

def returnsInt (call : Call) (recording : Recording) : Int × Recording :=
  match recording.answer call with
  | (some (value :: _), recording) => (value, recording)
  | (_, recording) => (usualInt call, recording)

def returnsArray (call : Call) (recording : Recording) : Shape.Raw × Recording :=
  match recording.answer call with
  | (some [first, second, count], recording) => (⟨first, second, count⟩, recording)
  | (_, recording) => (Shape.unset.toRaw, recording)

def returnsScalar (call : Call) (recording : Recording) : RawScalar × Recording :=
  match recording.answer call with
  | (some [word, code], recording) => (⟨UInt64.ofInt word, code⟩, recording)
  | (_, recording) => (⟨0, 1⟩, recording)

def returnsName (call : Call) (recording : Recording) : Option String × Recording :=
  match recording.answer call with
  | (some [0], recording) => (none, recording)
  | (_, recording) => (some (call.symbol ++ toString (nodeArgument call / 16)), recording)

-- Nodes before and after the loop come in turn.
def split : List Int → List Address × List Address
  | before :: after :: rest =>
      let (befores, afters) := split rest
      (before.toNat :: befores, after.toNat :: afters)
  | _ => ([], [])

-- A list of the reported length; what was not planned is null.
def padded (count : Int) (nodes : List Address) : List Address :=
  nodes.take count.toNat ++ List.replicate (count.toNat - nodes.length) Address.null

-- The second number says which of the lists is missing.
def returnsPairs (call : Call) (recording : Recording) : RawPairs × Recording :=
  match recording.answer call with
  | (some (count :: flags :: nodes), recording) =>
      let (before, after) := split nodes
      (⟨count, if flags % 2 = 1 then none else some (padded count before),
        if flags / 2 % 2 = 1 then none else some (padded count after)⟩, recording)
  | (_, recording) => (⟨0, none, none⟩, recording)

-- The recording library with some set of functions.
def library (features : Features) : Foreign Recording where
  features
  acquire node recording := recording.count node 1
  release node recording := recording.count node (-1)
  perform call recording := recording.note call
  node := returnsNode
  int := returnsInt
  array := returnsArray
  scalar := returnsScalar
  name := returnsName
  pairs := returnsPairs

end Recording

end MapAlgebra.Library
