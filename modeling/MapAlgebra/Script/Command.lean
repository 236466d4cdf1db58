import MapAlgebra.Grid
import MapAlgebra.Script.Inline
import MapAlgebra.Script.Statement

namespace MapAlgebra.Script

-- Questions about a raster.
inductive Question where
  | id | name | stream | dtype | dimension | order | size | block | group
deriving DecidableEq, Repr

-- A node given by address or by the variable that holds it.
inductive NodeRef where
  | address (node : Address)
  | variable (name : String)

-- Calls of an engine without any handle.
inductive EngineCall where
  | acquire
  | release
  | construct (request : List Address → Param Construction)
  | loopStart
  | loopCondition
  | loopReplay (replay : Loop.Replay)
  | loopAssemble
  | loopEnd
  | loopPairs
  | write (resource : String)
  | evaluate
  | value
  | grid
  | ask (question : Question)

-- How carried variables are handed over to be moved on.
inductive CarriedForm where
  | all
  | last
  | none
deriving DecidableEq, Repr

-- Commands for what lies behind an engine.
inductive Backstage where
  | insert (name : String) (grid : Param Grid)
  | resource (name : String)
  | protect (name : String)
  | refs (nodes : List Address)
  | fresh
  | file (name : String)
  | putFile (name text : String)
  | plan (symbol : String) (returns : List Int)
  | devices
  | ranks

-- One step of a session.
inductive Command where
  | statement (statement : Statement)
  | bind (name : String) (value : Expr)
  | repeated (count : Nat) (command : Command)
  | setCell (name : String) (position : Param Coord) (value : Expr)
  | setWhere (name : String) (mask value : Expr)
  | rebind (name : String) (node : Address)
  | drop (names : List String)
  | same (left right : Expr)
  | typeOf (value : Expr)
  | isNode (value : Expr)
  | debug (value : Expr)
  | ask (value : Expr) (question : Question)
  | describe (value : Expr)
  | grid (value : Expr)
  | value (value : Expr)
  | evaluate (values : List Expr)
  | write (value : Expr) (resource : String)
  | setupDevices (platform : String) (mask : Param DeviceMask) (device : String)
  | setRanks (count : Option Int)
  | bound
  | vars
  | contains (name : String)
  | loop (condition : Expr) (form : GuardForm) (body : List Statement) (bind : Option String)
  | isLowering
  | lowerStart (guard : Expr)
  | lowerAgain (condition : Expr)
  | lowerAssemble (bind : String)
  | lowerCarried (loop : Expr)
  | followCarried (names : List String) (form : CarriedForm)
  | dropCarried
  | lowerFinish
  | lowerAbandon
  | inline (loop : InlineLoop) (names : List String)
  | sum (limit : Int)
  | engine (call : EngineCall) (nodes : List NodeRef)
  | backstage (command : Backstage)

-- What a session says about an operand.
inductive Description where
  | host (value : Scalar)
  | empty
  | node (address : Address)
  | known (address : Address) (name : String) (dtype : DataType) (size : Shape)
  | failed (address : Address) (problem : MapError)

-- What a step answers.
inductive Reply where
  | nothing
  | flag (value : Bool)
  | int (value : Int)
  | text (value : String)
  | scalar (value : Scalar)
  | grid (value : Grid)
  | description (value : Description)
  | list (items : List Reply)
  | record (fields : List (String × Reply))

def Reply.ints (items : List Int) : Reply := .list (items.map .int)

def Reply.shape (shape : Shape) : Reply := .ints (shape.extents.map Int.ofNat)

def Reply.optional : Option Reply → Reply
  | some reply => reply
  | none => .nothing

end MapAlgebra.Script
