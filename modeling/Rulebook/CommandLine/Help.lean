import Rulebook.CommandLine.Arguments

/-!
# Help for the command line
-/

namespace Rulebook.CommandLine

/-- Lines with two columns, the second one aligned. -/
def columns (rows : List (String × String)) : List String :=
  let width := (rows.map fun row => row.1.length).foldl max 0
  rows.map fun (left, right) =>
    "  " ++ left ++ String.ofList (List.replicate (width + 2 - left.length) ' ') ++ right

/-- What the option for settings does. -/
def settingsRow : String × String :=
  ("    --config-dir <CONFIG_DIR>", "配置目录，缺省读取 $CONFIG_DIR 或 ./config")

/-- What the option for help does. -/
def helpRow : String × String := ("-h, --help", "Print help")

/-- The options for input files, and what the catalog is. -/
def inputRows (catalog : String) : List (String × String) :=
  [("    --markup <MARKUP>", ""), ("    --attributes <ATTRIBUTES>", catalog)]

/-- The commands and what they do. -/
def commandRows : List (String × String) :=
  [("export", "编译规则标记并输出规则树描述"), ("eval", "在记录上评估规则树，输出报告与更新后的记录"),
   ("help", "Print this message or the help of the given subcommand(s)")]

/-- A page of help: what it is about, how it is used, and its lists. -/
def page (about usage : String) (lists : List (String × List (String × String))) : String :=
  let blocks := lists.map fun (title, rows) => "\n".intercalate (title :: columns rows)
  "\n\n".intercalate (about :: ("Usage: rule-engine " ++ usage) :: blocks)

/-- The help on a topic. -/
def Topic.text : Topic → String
  | .all =>
    page "Business rule engine" "[OPTIONS] <COMMAND>"
      [("Commands:", commandRows), ("Options:", [settingsRow, helpRow])]
  | .export =>
    page "编译规则标记并输出规则树描述"
      "export [OPTIONS] --markup <MARKUP> --attributes <ATTRIBUTES>"
      [("Options:", settingsRow :: inputRows "属性目录 JSON" ++
        [("    --format <FORMAT>", "[default: json] [possible values: json, markup]"), helpRow])]
  | .evaluate =>
    page "在记录上评估规则树，输出报告与更新后的记录"
      "eval [OPTIONS] --markup <MARKUP> --attributes <ATTRIBUTES> --new <NEW>"
      [("Options:", settingsRow :: inputRows "" ++
        [("    --new <NEW>", "新记录 JSON"), ("    --old <OLD>", "旧记录 JSON，缺省为空记录"),
         ("    --trace", "输出评估追踪"), ("    --today <TODAY>", "固定 TODAY（按配置的日期格式）"),
         helpRow])]
  | .help =>
    page "Print this message or the help of the given subcommand(s)" "help [COMMAND]..."
      [("Arguments:", [("[COMMAND]...", "Print help for the subcommand(s)")])]

end Rulebook.CommandLine
