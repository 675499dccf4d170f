/-!
# Help

What the program says about itself and about each of its commands.
-/

namespace ArchSpec.CommandLine

inductive Topic where
  | program
  | run
  | check
  | primitives
  | help
deriving DecidableEq

namespace Topic

/-- The topic that the name of a command stands for. -/
def ofName? : String → Option Topic
  | "run" => some run
  | "check" => some check
  | "primitives" => some primitives
  | "help" => some help
  | _ => none

/-- The lines of the help on a topic. -/
def lines : Topic → List String
  | program =>
      ["ASL native evaluation backend",
        "",
        "Usage: asl <COMMAND>",
        "",
        "Commands:",
        "  run         Run a program; the process exits with the value returned by main()",
        "  check       Build the static environment without running",
        "  primitives  Dump the primitive declarations as JSON",
        "  help        Print this message or the help of the given subcommand(s)",
        "",
        "Options:",
        "  -h, --help     Print help",
        "  -V, --version  Print version"]
  | run =>
      ["Run a program; the process exits with the value returned by main()",
        "",
        "Usage: asl run [OPTIONS] <FILE>",
        "",
        "Arguments:",
        "  <FILE>  JSON program file",
        "",
        "Options:",
        "      --config <CONFIG>          TOML run configuration",
        "      --strictness <STRICTNESS>  Override the configured strictness " ++
          "[possible values: silence, warn, type-check]",
        "      --instrument               Record identifier accesses",
        "      --trace <TRACE>            Write the recorded trace to this file as JSON",
        "  -h, --help                     Print help"]
  | check =>
      ["Build the static environment without running",
        "",
        "Usage: asl check [OPTIONS] <FILE>",
        "",
        "Arguments:",
        "  <FILE>  JSON program file",
        "",
        "Options:",
        "      --strictness <STRICTNESS>  [default: type-check] " ++
          "[possible values: silence, warn, type-check]",
        "  -h, --help                     Print help"]
  | primitives =>
      ["Dump the primitive declarations as JSON",
        "",
        "Usage: asl primitives",
        "",
        "Options:",
        "  -h, --help  Print help"]
  | help =>
      ["Print this message or the help of the given subcommand(s)",
        "",
        "Usage: asl help [COMMAND]...",
        "",
        "Arguments:",
        "  [COMMAND]...  Print help for the subcommand(s)"]

def text (topic : Topic) : String := String.join (topic.lines.map (· ++ "\n"))

end Topic

end ArchSpec.CommandLine
