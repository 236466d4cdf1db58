namespace MapAlgebra.Source

-- What a pattern binds. Constants inside patterns are kept beside them.
inductive Pattern where
  -- A name, and what has to match as well.
  | bind (name : String) (also : List Pattern)
  -- Tuples, slices, references and structures: what their parts bind.
  | group (parts : List Pattern)
  -- Alternatives.
  | either (cases : List Pattern)
  | paren (inner : Pattern)
  -- Anything that binds no name.
  | closed

-- Expressions, statements, arms and items of a source text, as far as it matters which names and
-- jumps they hold. Where a form has parts, they stand in the order of the text.
inductive Code where
  -- A single name.
  | name (name : String)
  -- A longer path, and the constants among its arguments.
  | path (constants : List Code)
  | placeholder
  | paren (inner : Code)
  | tuple (items : List Code)
  | field (base : Code)
  | index (base position : Code)
  | dereference (base : Code)
  | assign (left right : Code)
  -- Assignment with an operation.
  | update (left right : Code)
  -- The call of a method, with the constants and the arguments that follow its name.
  | method (receiver : Code) (name : String) (arguments : List Code)
  -- Any other form, for its parts alone.
  | parts (parts : List Code)
  | block (label : Option String) (body : List Code)
  -- A block that jumps neither enter nor leave.
  | detached (body : List Code)
  | branch (condition : Code) (yes no : List Code)
  | select (value : Code) (arms : List Code)
  | arm (pattern : Pattern) (constants guard : List Code) (result : Code)
  -- A pattern as a condition.
  | test (pattern : Pattern) (constants : List Code) (value : Code)
  -- A declaration, with the block that runs where the pattern does not match.
  | declare (pattern : Pattern) (constants value otherwise : List Code)
  | whileLoop (label : Option String) (condition : Code) (body : List Code)
  | forLoop (label : Option String) (pattern : Pattern) (constants : List Code) (range : Code)
      (body : List Code)
  | endless (label : Option String) (body : List Code)
  | closure (parameters : List Pattern) (constants : List Code) (body : Code)
  | function (parameters : List Pattern) (constants : List Code) (body : List Code)
  | leave (label : Option String) (value : List Code)
  | again (label : Option String)

-- A form with nothing inside.
def Code.nothing : Code := .parts []

end MapAlgebra.Source
