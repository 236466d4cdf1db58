import MapAlgebra.Text

namespace MapAlgebra.Log

-- What a message is about.
inductive Channel where
  | graph
  | loop
  | engine
deriving DecidableEq, Repr

-- How much is said, from nothing to everything.
inductive Level where
  | off
  | error
  | warn
  | trace
deriving DecidableEq, Repr

namespace Channel

def all : List Channel := [graph, loop, engine]

def name : Channel → String
  | graph => "graph"
  | loop => "loop"
  | engine => "engine"

def ofName (text : String) : Except String Channel :=
  match all.find? (·.name = text) with
  | some channel => .ok channel
  | none => .error ("unknown log channel '" ++ text ++ "'")

end Channel

namespace Level

def rank : Level → Nat
  | off => 0
  | error => 1
  | warn => 2
  | trace => 3

def name : Level → String
  | off => "off"
  | error => "error"
  | warn => "warn"
  | trace => "trace"

def ofName (text : String) : Except String Level :=
  match text with
  | "off" | "0" => .ok off
  | "error" => .ok error
  | "warn" | "warning" => .ok warn
  | "trace" | "1" | "full" => .ok trace
  | other => .error ("unknown log level '" ++ other ++ "'")

end Level

-- The level of each channel.
structure Filter where
  graph : Level
  loop : Level
  engine : Level
deriving DecidableEq, Repr

-- One part of a filter's text: a level for all channels or for one of them.
inductive Directive where
  | every (level : Level)
  | one (channel : Channel) (level : Level)
deriving DecidableEq, Repr

-- A directive that names no known channel or level says nothing.
def Directive.read? (text : String) : Option Directive :=
  match Text.splitOnce '=' text with
  | some (channel, level) => do
      let channel ← (Channel.ofName (Text.trim channel)).toOption
      let level ← (Level.ofName (Text.trim level)).toOption
      return .one channel level
  | none => do
      let level ← (Level.ofName text).toOption
      return .every level

namespace Filter

def uniform (level : Level) : Filter := ⟨level, level, level⟩

def level (filter : Filter) : Channel → Level
  | .graph => filter.graph
  | .loop => filter.loop
  | .engine => filter.engine

def withLevel (filter : Filter) (level : Level) : Channel → Filter
  | .graph => { filter with graph := level }
  | .loop => { filter with loop := level }
  | .engine => { filter with engine := level }

-- A level for all channels, or for one, over what was there before.
def general (filter : Filter) : Directive → Filter
  | .every level => uniform level
  | .one _ _ => filter

def special (filter : Filter) : Directive → Filter
  | .every _ => filter
  | .one channel level => filter.withLevel level channel

-- The parts of a filter's text, without blanks around them and in small letters.
def parts (text : String) : List String :=
  (((Text.split ',' text).map Text.trim).filter (· ≠ "")).map Text.lower

def directives (text : String) : List Directive :=
  (parts text).filterMap Directive.read?

-- Levels for single channels win over levels for all of them, wherever they stand.
def parse (text : String) : Filter :=
  (directives text).foldl special ((directives text).foldl general (uniform .error))

def enabled (filter : Filter) (channel : Channel) (level : Level) : Bool :=
  level ≠ .off && level.rank ≤ (filter.level channel).rank

end Filter

end MapAlgebra.Log
