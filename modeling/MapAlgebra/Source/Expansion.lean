import MapAlgebra.Source.Lowered

namespace MapAlgebra.Source.LoweredLoop

def braced (inside : List String) : String := "\x7b" ++ String.join inside ++ "\x7d"

variable (loop : LoweredLoop)

-- The condition as a guard of the loop.
def guard : String := "::mapalg::LoopCondition::into_guard(" ++ loop.condition ++ ")?"

-- Where the guard is a truth value the loop runs as it is.
def hostArm : String :=
  "::mapalg::LoopGuard::Host(mut __map_holds) => " ++ braced
    ["while __map_holds ", braced [loop.body, "__map_holds = ", loop.guard, ".into_host()?;"],
      "::core::option::Option::<::mapalg::Raster>::None"]

def rebinding (target : String) : String :=
  "::mapalg::LoopCarried::rebind_carried(&mut " ++ target ++ ", &__map_carried)?;"

-- Where the guard is a node the body is recorded twice and the carried variables move on.
def nodeArm : String :=
  "::mapalg::LoopGuard::Node(__map_guard) => " ++ braced
    (["let mut __map_lowering = ::mapalg::LoopLowering::start(&__map_guard)?;",
      "::core::mem::drop(__map_guard);", loop.body,
      "let __map_next = ", loop.guard, ".into_node()?;",
      "__map_lowering.again(&__map_next)?;", "::core::mem::drop(__map_next);", loop.body,
      "::core::mem::drop(", loop.guard, ".into_node()?);",
      "let __map_loop = __map_lowering.assemble()?;",
      "let __map_carried = __map_lowering.carried(&__map_loop)?;"] ++
      loop.targets.map rebinding ++
      ["__map_lowering.finish()?;", "::core::option::Option::Some(__map_loop)"])

-- The code that takes the place of the loop, without blanks.
def expansion : String :=
  Text.withoutBlanks ("match " ++ loop.guard ++ " " ++ braced [loop.hostArm, loop.nodeArm])

end MapAlgebra.Source.LoweredLoop
