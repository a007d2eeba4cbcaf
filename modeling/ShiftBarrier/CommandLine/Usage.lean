/-!
# Usage texts of the command line

* `CommandLine.usage` is shown with every argument error, `CommandLine.help` on request.
-/

set_option autoImplicit false

namespace ShiftBarrier
namespace CommandLine

/-- The name of the program in its own messages. -/
def programName : String := "spvguard-opt"

/-- The version it answers with. -/
def version : String := "0.1.0"

/-- Lines, each of them ended. -/
private def textOf (lines : List String) : String := String.join (lines.map (· ++ "\n"))

/-- A summary of the arguments. -/
def usage : String := textOf [
  "usage: spvguard-opt [-h] [-o OUTPUT_FILE] [--version]",
  "                    [--mali-optimization-barrier] [--validate]",
  "                    [--max-id-bound MAX_ID_BOUND] [--log-level LOG_LEVEL]",
  "                    [input_file]"]

/-- The summary with a line on every argument. -/
def help : String := usage ++ textOf [
  "",
  "Apply driver workaround passes to SPIR-V assembly",
  "",
  "positional arguments:",
  "  input_file            SPIR-V assembly file (default: stdin)",
  "",
  "options:",
  "  -h, --help            show this help message and exit",
  "  -o OUTPUT_FILE        output file (default: stdout)",
  "  --version             show program's version number and exit",
  "  --mali-optimization-barrier",
  "                        run the mali-optimization-barrier pass (passes run in command line order)",
  "  --validate            check the module after running the passes",
  "  --max-id-bound MAX_ID_BOUND",
  "                        upper limit of the id bound",
  "  --log-level LOG_LEVEL",
  "                        diagnostics level (default WARNING)"]

end CommandLine
end ShiftBarrier
