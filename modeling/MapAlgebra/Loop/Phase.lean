namespace MapAlgebra.Loop

-- How far the recording of a loop has come.
inductive Phase where
  | idle
  | started
  | firstReplay
  | secondReplay
  | assembled
deriving DecidableEq, Repr

def Phase.name : Phase → String
  | .idle => "Idle"
  | .started => "Start"
  | .firstReplay => "Body"
  | .secondReplay => "Again"
  | .assembled => "Assembled"

-- The steps that move a recording from one phase to the next.
inductive Replay where
  | first
  | second
deriving DecidableEq, Repr

def Replay.name : Replay → String
  | .first => "loop body"
  | .second => "second loop replay"

end MapAlgebra.Loop
