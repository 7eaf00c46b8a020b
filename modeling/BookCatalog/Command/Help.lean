import BookCatalog.Command.Grammar

/-!
What the command line says about itself: the wording of each usage error, and the text that shows
when help is asked for.
-/
namespace BookCatalog.Command

/-- The name that the program goes by. -/
def programName : String := "catalog-client"

/-- The version of the program. -/
def programVersion : String := "0.1.0"

/-- The text that explains the command line. -/
def helpText : String := "\n".intercalate
  ["Command line client for the book and author catalog service",
    "",
    "Usage: " ++ programName ++ " [--url URL] [--json] COMMAND",
    "",
    "Commands (KIND is book or author):",
    "  get KIND ID                    Fetch one record by identifier",
    "  delete KIND ID                 Delete one record by identifier",
    "  search KIND FIELD [VALUE]      Search with one clause, or with two joined by",
    "      [--op OP --field2 FIELD --value2 VALUE]  AND or OR",
    "  top KIND [-k K] [--svg FILE]   Rank all records of a kind by rating",
    "  update KIND ID -a ATTR=VALUE   Replace attributes of an existing record",
    "  create KIND -a ATTR=VALUE      Create a single record",
    "  create-many KIND FILE          Create every record in a JSON array file",
    "  scrape URL                     Ask the service to scrape and store a page",
    "",
    "Options:",
    "  --url URL      Base URL of the catalog service (or CATALOG_URL)",
    "  --json         Print raw JSON instead of formatted text",
    "  -h, --help     Print help",
    "  -V, --version  Print version"]

namespace UsageError

/-- The wording of a usage error; what was asked for counts as one. -/
def message : UsageError → String
  | .helpWanted | .nothingGiven => helpText
  | .versionWanted => programName ++ " " ++ programVersion
  | .missingCommand => "a command is required"
  | .missingArgument => "a required argument is missing"
  | .unknownArgument => "unexpected argument"
  | .unknownCommand => "unrecognized command"
  | .missingValue => "a value is required"
  | .unreadableValue => "invalid value"
  | .repeatedArgument => "an argument is given more than once"
  | .needlessValue => "a value is given where none is expected"

/-- Whether it is no mistake, but was asked for. -/
def isRequest : UsageError → Bool
  | .helpWanted | .versionWanted => true
  | _ => false

end UsageError
end BookCatalog.Command
