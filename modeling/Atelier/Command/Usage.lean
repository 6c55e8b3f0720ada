/-!
# The help text

What is shown to a reader who asks for help, or whose command line is wrong.
-/

namespace Atelier.Command

/-- The commands with their switches. -/
def usage : String :=
  "Render, document and bundle drawings\n\n" ++
  "Usage: atelier [--verbose] COMMAND\n\n" ++
  "Commands:\n" ++
  "  render SCENE [--seed N] [--tick N] [--pretty]   Render a scene as JSON\n" ++
  "  scenes                                          List the scenes\n" ++
  "  docs [-o FILE] [--summaries]                    Print the reference as Markdown\n" ++
  "  package ROOT [--extension EXT] [-o FILE]        Bundle the files below a directory\n" ++
  "  unpackage BUNDLE PREFIX                         Unpack a bundle below a directory\n" ++
  "  help                                            Print this help\n"

end Atelier.Command
