/-!
The text that explains the command line.
-/

namespace CognitiveLoad.CommandLine

def helpLines : List String := [
  "usage: complexity-watch [-h] [--language LANGUAGE] [--threshold THRESHOLD]",
  "                        [--ignore PATTERN] [--recursive]",
  "                        [--no-boolean-operators] [--format \x7btext,json\x7d]",
  "                        [--verbose]",
  "                        path",
  "",
  "Complexity Watch - Cognitive complexity analyzer for C++ and Python",
  "",
  "positional arguments:",
  "  path                  File, directory or git repository to analyze",
  "",
  "options:",
  "  -h, --help            show this help message and exit",
  "  --language LANGUAGE, -l LANGUAGE",
  "                        Force the language (cpp or python) instead of",
  "                        detecting it from file extensions",
  "  --threshold THRESHOLD, -t THRESHOLD",
  "                        Only report functions with complexity at or above this",
  "                        value (default: 0)",
  "  --ignore PATTERN, -i PATTERN",
  "                        Gitignore-style pattern of files to skip (can be",
  "                        repeated)",
  "  --recursive, -r       Analyze directories recursively",
  "  --no-boolean-operators",
  "                        Do not count sequences of boolean operators",
  "  --format \x7btext,json\x7d, -f \x7btext,json\x7d",
  "                        Output format (default: text)",
  "  --verbose, -v         Enable verbose logging and list complexity factors",
  "",
  "Examples:",
  "  # Analyze a single file",
  "  complexity-watch src/module.py",
  "",
  "  # Analyze a directory recursively, reporting functions scoring 10 or more",
  "  complexity-watch src/ --recursive --threshold 10",
  "",
  "  # Analyze the tracked files of a git repository as JSON",
  "  complexity-watch /path/to/repo --format json",
  "",
  "  # Skip generated and vendored code",
  "  complexity-watch . -r --ignore \"build/\" --ignore \"third_party/**\"",
  "",
  "Environment variables:",
  "  COMPLEXITY_THRESHOLD, COMPLEXITY_LANGUAGE, COMPLEXITY_IGNORE (comma-separated),",
  "  COMPLEXITY_RECURSIVE, COMPLEXITY_BOOLEAN_OPERATORS, COMPLEXITY_FORMAT,",
  "  COMPLEXITY_VERBOSE. Command-line arguments take precedence.",
  "        "]

def help : String :=
  String.join (helpLines.map (· ++ "\n"))

end CognitiveLoad.CommandLine
