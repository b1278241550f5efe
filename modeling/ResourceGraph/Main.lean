import ResourceGraph.Plugin.Reference

namespace ResourceGraph

/-- Answer line after line until the input ends. -/
partial def answerLines (input output : IO.FS.Stream) : IO Unit := do
  let line ← input.getLine
  if line.isEmpty then return
  let (replies, _) := Reference.module.serve () line
  output.putStr (Module.output replies)
  output.flush
  answerLines input output

end ResourceGraph

def main : IO Unit := do
  ResourceGraph.answerLines (← IO.getStdin) (← IO.getStdout)
