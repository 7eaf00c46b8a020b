import BookCatalog.Settings.Address
import BookCatalog.Decimal.Numeral
import BookCatalog.Text.Basic

/-!
Settings, from three environment variables with a default for each. The base URL of the service is
put into one form when it is set: without blanks around it, with a scheme in front and without a
slash at its end. A blank one leaves the setting as it is.
-/
namespace BookCatalog

/-- The values of the environment variables that are set. -/
structure Environment where
  catalogUrl : Option String
  uiBind : Option String
  topK : Option String

/-- What is wrong with the environment. -/
inductive SettingsProblem where
  | address
  | count (problem : Decimal.NumeralProblem)
  deriving DecidableEq

/-- The wording of a problem. -/
def SettingsProblem.message : SettingsProblem → String
  | .address => "invalid socket address syntax"
  | .count problem => problem.message

/-- What the command line and the web front end go by. -/
structure Settings where
  /-- Base URL of the service, without a slash at its end. -/
  catalogUrl : String
  /-- Where the web front end listens. -/
  bind : Address
  /-- Size of a ranking that no request states. -/
  topK : Nat

namespace Settings

/-- A URL without slashes at its end. -/
def stripSlashes (url : String) : String := .ofList (Text.dropEndWhile (· == '/') url.toList)

/-- Whether a URL has a scheme in front. -/
def hasScheme (url : String) : Bool :=
  "http://".toList.isPrefixOf url.toList || "https://".toList.isPrefixOf url.toList

/-- The form in which a base URL is kept; a blank one becomes the fallback, just as it is. -/
def normalizeUrl (candidate fallback : String) : String :=
  if Text.isBlankText candidate then fallback
  else
    let trimmed := Text.trim candidate
    stripSlashes (if hasScheme trimmed then trimmed else "http://" ++ trimmed)

/-- The settings without any variable. -/
def standard : Settings where
  catalogUrl := "http://127.0.0.1:5000"
  bind := .v4 [127, 0, 0, 1] 8080
  topK := 10

/-- The settings that the variables state. The address is looked at before the count. -/
def ofEnvironment (environment : Environment) : Except SettingsProblem Settings := do
  let bind ← match environment.uiBind with
    | none => .ok standard.bind
    | some text => match Address.read? text with
      | some address => .ok address
      | none => .error .address
  let topK ← match environment.topK with
    | none => .ok standard.topK
    | some text => match Decimal.readCount Decimal.countBound (Text.trim text) with
      | .ok count => .ok count
      | .error problem => .error (.count problem)
  let candidate := environment.catalogUrl.getD standard.catalogUrl
  return { catalogUrl := normalizeUrl candidate standard.catalogUrl, bind, topK }

/-- The settings with another base URL, unless it is blank. -/
def withCatalogUrl (settings : Settings) (url : String) : Settings :=
  { settings with catalogUrl := normalizeUrl url settings.catalogUrl }

end Settings
end BookCatalog
