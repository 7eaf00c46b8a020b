import Mathlib.Data.List.Induction
import BookCatalog.Proofs.Settings.Url

/-!
The base URL over a run. A program finds its settings, the standard ones or those that its environment states, and
may then be given one base URL after the other. Each of them takes the one before it as its fallback, and still
nothing is left of that one as soon as a candidate is not blank. What is kept in between can always stand in front
of a path: it is not empty, and no slash is at its end.
-/
namespace BookCatalog.Settings

open Text

/-- A text that can stand in front of a path. -/
structure IsBase (url : String) : Prop where
  nonempty : url ≠ ""
  noSlash : url.toList.getLast? ≠ some '/'

/-- Settings as a program finds them. -/
inductive IsInitial : Settings → Prop where
  | standard : IsInitial standard
  | environment {environment : Environment} {settings : Settings}
      (stated : ofEnvironment environment = .ok settings) : IsInitial settings

/-- The settings after candidates for the base URL, one after the other. -/
def withCatalogUrls (settings : Settings) (candidates : List String) : Settings :=
  candidates.foldl withCatalogUrl settings

/-- The last candidate that is not blank. -/
def lastGiven? (candidates : List String) : Option String := (candidates.filter fun c => !isBlankText c).getLast?

variable {settings start : Settings} {candidate url : String}

/-! ## One candidate -/

/-- A client that takes slashes off the end of a base finds none. -/
theorem IsBase.stripSlashes_eq (base : IsBase url) : stripSlashes url = url := by
  have nonempty : url.toList ≠ [] := fun empty => base.nonempty (String.toList_eq_nil_iff.mp empty)
  have kept : dropEndWhile (· == '/') url.toList = url.toList := by
    apply (dropEndWhile_eq_self_iff nonempty).mpr
    refine ⟨_, List.getLast?_eq_some_getLast nonempty, ?_⟩
    rw [beq_eq_false_iff_ne]
    intro slash
    exact base.noSlash (by rw [List.getLast?_eq_some_getLast nonempty, slash])
  rw [stripSlashes, kept, String.ofList_toList]

theorem normalizeUrl_of_blank (blank : isBlankText candidate = true) (fallback : String) :
    normalizeUrl candidate fallback = fallback := by
  rw [normalizeUrl, if_pos blank]

/-- The fallback has no part in the form of a candidate that is not blank. -/
theorem normalizeUrl_congr (given : isBlankText candidate = false) (fallback other : String) :
    normalizeUrl candidate fallback = normalizeUrl candidate other := by
  have differs : ¬ isBlankText candidate = true := by simp [given]
  rw [normalizeUrl, if_neg differs, normalizeUrl, if_neg differs]

theorem isBase_normalizeUrl (given : isBlankText candidate = false) (fallback : String) :
    IsBase (normalizeUrl candidate fallback) where
  nonempty := by
    intro empty
    -- Without an address the form is what is left of a scheme, and that is more than its slashes.
    by_cases bare : address candidate = []
    · rcases normalizeUrl_of_no_address given bare fallback with form | form <;> simp [form] at empty
    · have form := toList_normalizeUrl given fallback
      rw [if_neg bare, empty] at form
      exact bare (List.append_eq_nil_iff.mp form.symm).2
  noSlash := getLast?_normalizeUrl given fallback

/-- A candidate leaves a base in its place or puts one there. -/
theorem withCatalogUrl_isBase (base : IsBase settings.catalogUrl) (candidate : String) :
    IsBase (settings.withCatalogUrl candidate).catalogUrl := by
  rw [withCatalogUrl]
  by_cases blank : isBlankText candidate = true
  · rw [normalizeUrl_of_blank blank]
    exact base
  · exact isBase_normalizeUrl (eq_false_of_ne_true blank) _

/-! ## A whole run -/

theorem withCatalogUrls_concat (candidates : List String) (candidate : String) :
    settings.withCatalogUrls (candidates ++ [candidate]) =
      (settings.withCatalogUrls candidates).withCatalogUrl candidate := by
  rw [withCatalogUrls, List.foldl_concat, withCatalogUrls]

theorem lastGiven?_concat (candidates : List String) (candidate : String) :
    lastGiven? (candidates ++ [candidate]) =
      if isBlankText candidate then lastGiven? candidates else some candidate := by
  rw [lastGiven?, List.filter_append]
  cases blank : isBlankText candidate <;> simp [lastGiven?, blank]

theorem withCatalogUrls_isBase (base : IsBase settings.catalogUrl) (candidates : List String) :
    IsBase (settings.withCatalogUrls candidates).catalogUrl := by
  induction candidates using List.reverseRecOn with
  | nil => exact base
  | append_singleton candidates candidate ih =>
    rw [withCatalogUrls_concat]
    exact withCatalogUrl_isBase ih candidate

/-- Of all candidates only the last one that is not blank counts, and only for the base URL. -/
theorem withCatalogUrls_eq (settings : Settings) (candidates : List String) :
    settings.withCatalogUrls candidates = { settings with
      catalogUrl := (lastGiven? candidates).elim settings.catalogUrl fun last => normalizeUrl last "" } := by
  induction candidates using List.reverseRecOn with
  | nil => rfl
  | append_singleton candidates candidate ih =>
    rw [withCatalogUrls_concat, ih, lastGiven?_concat, withCatalogUrl]
    by_cases blank : isBlankText candidate = true
    · rw [normalizeUrl_of_blank blank, if_pos blank]
    · rw [if_neg blank, normalizeUrl_congr (eq_false_of_ne_true blank) _ ""]
      rfl

/-! ## The settings in the beginning -/

theorem standard_isBase : IsBase standard.catalogUrl := ⟨by decide +kernel, by decide +kernel⟩

/-- The variable of the environment counts as a first candidate, and none is refused. -/
theorem ofEnvironment_eq (environment : Environment) :
    ofEnvironment environment = (ofEnvironment { environment with catalogUrl := none }).map fun settings =>
      { settings with catalogUrl := (standard.withCatalogUrls environment.catalogUrl.toList).catalogUrl } := by
  obtain ⟨url, bind, topK⟩ := environment
  have counts : normalizeUrl (url.getD standard.catalogUrl) standard.catalogUrl =
      (standard.withCatalogUrls url.toList).catalogUrl := by
    cases url with
    | none => decide +kernel
    | some url => rfl
  -- The other two variables are read alike on both sides.
  simp only [ofEnvironment, counts]
  split
  · split
    · rfl
    · split <;> rfl
  · split
    · split
      · rfl
      · split <;> rfl
    · rfl

theorem IsInitial.isBase (initial : IsInitial start) : IsBase start.catalogUrl := by
  cases initial with
  | standard => exact standard_isBase
  | @environment environment _ stated =>
    rw [ofEnvironment_eq] at stated
    cases without : ofEnvironment { environment with catalogUrl := none } with
    | error problem =>
      rw [without] at stated
      cases stated
    | ok settings =>
      rw [without] at stated
      cases stated
      exact withCatalogUrls_isBase standard_isBase _

end BookCatalog.Settings
